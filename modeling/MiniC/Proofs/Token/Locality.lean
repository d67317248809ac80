import MiniC.Proofs.Compile
import MiniC.Proofs.Token.Continuation

/-!
# Tokens are cut by their own characters

Nothing outside a token has a part in how it is cut, as long as no character that could go
on with it stands behind it.  A literal in quotes ends in its own characters; an escape
may look at one character more, which is its own literal's.  So a text that is written
anew, with a blank between each token and the next, is cut into the same tokens.
-/

namespace MiniC

/-- A text that does not go on with the token before it: the end, or a blank. -/
def Detached (text : List Char) : Prop := ∀ next ∈ text.head?, next = ' '

theorem detached_nil : Detached [] := by simp [Detached]

theorem detached_blank (text : List Char) : Detached (' ' :: text) := by simp [Detached]

/-- Characters that a blank ends are the same when nothing else goes on with them. -/
theorem takeWhile_detached {passes : Char -> Bool} (stops : passes ' ' = false)
    (text : List Char) {tail : List Char} (detached : Detached tail) :
    (text.takeWhile passes ++ tail).takeWhile passes = text.takeWhile passes := by
  rw [List.takeWhile_append_of_pos fun _ => List.mem_takeWhile_imp]
  cases tail with
  | nil => exact List.append_nil _
  | cons next more =>
      obtain rfl := detached next rfl
      rw [List.takeWhile_cons_of_neg (by simp [stops]), List.append_nil]

/-! ## Numbers -/

namespace Number

/-- The characters that announce a radix behind a zero. -/
def marks : List Char := ['x', 'X', 'b', 'B']

theorem reading_of_ne_zero {char : Char} (other : char ≠ '0') (rest : List Char) :
    reading (char :: rest) = ⟨10, 0⟩ := by
  unfold reading
  split <;> simp_all

theorem reading_zero {rest : List Char} (unmarked : ∀ next ∈ rest.head?, next ∉ marks) :
    reading ('0' :: rest) = ⟨8, 0⟩ := by
  unfold reading
  split <;> simp_all [marks]

/-- What stands behind the first digit has no part in how a marked number is read. -/
theorem reading_marked {mark : Char} (marked : mark ∈ marks) (digit : Char)
    (rest other : List Char) :
    reading ('0' :: mark :: digit :: rest) = reading ('0' :: mark :: digit :: other) ∧
      (reading ('0' :: mark :: digit :: rest)).mark = 2 := by
  simp only [marks, List.mem_cons, List.not_mem_nil, or_false] at marked
  rcases marked with rfl | rfl | rfl | rfl <;> exact ⟨rfl, rfl⟩

/-- A number has a digit behind its mark. -/
theorem scan_cases {text : List Char} {value : Int} {length : Nat}
    (scanned : scan text = .ok (value, length)) :
    length = (reading text).mark +
        ((text.drop (reading text).mark).takeWhile isAlphanumeric).length ∧
      (reading text).mark < length := by
  unfold scan at scanned
  dsimp only at scanned
  split at scanned
  · rename_i found known
    cases scanned
    refine ⟨rfl, Nat.lt_add_of_pos_right (List.length_pos_of_ne_nil fun empty => ?_)⟩
    rw [empty] at known
    cases known
  · cases scanned

/-- The characters of a number tell how it is read. -/
theorem reading_own {text : List Char} {value : Int} {length : Nat}
    (scanned : scan text = .ok (value, length)) {tail : List Char}
    (detached : Detached tail) :
    reading (text.take length ++ tail) = reading text := by
  obtain ⟨-, some⟩ := scan_cases scanned
  obtain ⟨count, rfl⟩ := Nat.exists_eq_add_of_lt (Nat.zero_lt_of_lt some)
  rw [Nat.zero_add] at some ⊢
  match text with
  | [] => cases scanned
  | char :: rest =>
      rw [List.take_succ_cons, List.cons_append]
      by_cases zero : char = '0'
      · subst zero
        match rest with
        | [] =>
            rw [List.take_nil, List.nil_append]
            refine reading_zero fun next first => ?_
            obtain rfl := detached next first
            decide
        | mark :: rest =>
            by_cases marked : mark ∈ marks
            · match rest with
              | [] =>
                  simp only [marks, List.mem_cons, List.not_mem_nil, or_false] at marked
                  rcases marked with rfl | rfl | rfl | rfl <;> cases scanned
              | digit :: rest =>
                  rw [(reading_marked marked digit rest rest).2] at some
                  obtain ⟨further, rfl⟩ : ∃ further, count = further + 2 :=
                    ⟨count - 2, by omega⟩
                  exact (reading_marked marked digit _ _).1
            · have unmarked : reading ('0' :: mark :: rest) = ⟨8, 0⟩ :=
                reading_zero (by simpa using marked)
              rw [unmarked]
              refine reading_zero fun next first => ?_
              cases count with
              | zero =>
                  obtain rfl := detached next (by simpa using first)
                  decide
              | succ count =>
                  obtain rfl : mark = next := by simpa using first
                  exact marked
      · rw [reading_of_ne_zero zero, reading_of_ne_zero zero]

theorem scan_own {text : List Char} {value : Int} {length : Nat}
    (scanned : scan text = .ok (value, length)) {tail : List Char}
    (detached : Detached tail) :
    scan (text.take length ++ tail) = .ok (value, length) := by
  have same := reading_own scanned detached
  obtain ⟨count, -⟩ := scan_cases scanned
  have marked : (text.take (reading text).mark).length = (reading text).mark := by
    rw [List.length_take, Nat.min_eq_left (mark_le text)]
  have digits := takeWhile_detached (show isAlphanumeric ' ' = false by decide)
    (text.drop (reading text).mark) detached
  have own : (text.take length ++ tail).drop (reading text).mark =
      (text.drop (reading text).mark).takeWhile isAlphanumeric ++ tail := by
    rw [count, List.take_add, List.append_assoc, List.drop_append_of_le_length (by omega),
      List.drop_of_length_le (by omega), List.nil_append,
      ← List.prefix_iff_eq_take.mp (List.takeWhile_prefix _)]
  unfold scan at scanned ⊢
  dsimp only at scanned ⊢
  rw [same, own, digits]
  exact scanned

end Number

/-! ## Literals in quotes -/

namespace Quoted

/-- Digits at the front of a text, up to a limit, depend on nothing but themselves and the
character behind them. -/
theorem leadingDigits_own (digit? : Char -> Option Nat) (text : List Char) (limit : Nat) :
    ∃ own after, text = own ++ after ∧
      own.length = ((leadingDigits digit? text).take limit).length ∧
      ∀ other : List Char, other.head? = after.head? ->
        (leadingDigits digit? (own ++ other)).take limit =
          (leadingDigits digit? text).take limit := by
  induction text generalizing limit with
  | nil =>
      refine ⟨[], [], rfl, by simp [leadingDigits], fun other same => ?_⟩
      rw [List.head?_eq_none_iff.mp same, List.nil_append]
  | cons char rest hypothesis =>
      cases limit with
      | zero => exact ⟨[], char :: rest, rfl, by simp, fun other _ => by simp⟩
      | succ limit =>
          cases value : digit? char with
          | none =>
              refine ⟨[], char :: rest, rfl, by simp [leadingDigits, value], ?_⟩
              intro other same
              obtain ⟨more, rfl⟩ := List.head?_eq_some_iff.mp same
              simp [leadingDigits, value]
          | some digit =>
              obtain ⟨own, after, rfl, length, kept⟩ := hypothesis limit
              refine ⟨char :: own, after, rfl, by simp [leadingDigits, value, length], ?_⟩
              intro other same
              simp only [List.cons_append, leadingDigits, value, List.take_succ_cons,
                kept other same]

/-- The same without a limit. -/
theorem leadingDigits_all_own (digit? : Char -> Option Nat) (text : List Char) :
    ∃ own after, text = own ++ after ∧ own.length = (leadingDigits digit? text).length ∧
      ∀ other : List Char, other.head? = after.head? ->
        leadingDigits digit? (own ++ other) = leadingDigits digit? text := by
  obtain ⟨own, after, split, length, kept⟩ :=
    leadingDigits_own digit? text ((leadingDigits digit? text).length + 1)
  rw [List.take_of_length_le (Nat.le_succ _)] at length kept
  refine ⟨own, after, split, length, fun other same => ?_⟩
  have taken := kept other same
  -- the limit has not been reached, so nothing was cut off
  have short := congrArg List.length taken
  rw [List.length_take] at short
  rwa [List.take_of_length_le (by omega)] at taken

/-- An escape depends on nothing but itself and the character behind it. -/
theorem escape_own {text : List Char} {bytes : List UInt8} {length : Nat}
    (read : escape text = .ok (bytes, length)) :
    ∃ own after, text = own ++ after ∧ own.length = length ∧
      ∀ other : List Char, other.head? = after.head? ->
        escape (own ++ other) = .ok (bytes, length) := by
  cases text with
  | nil => cases read
  | cons char rest =>
      rw [escape] at read
      by_cases octal : (octalDigit? char).isSome = true
      · rw [if_pos octal] at read
        cases read
        obtain ⟨own, after, split, count, kept⟩ :=
          leadingDigits_own octalDigit? (char :: rest) 3
        obtain ⟨value, known⟩ := Option.isSome_iff_exists.mp octal
        cases own with
        | nil => simp [leadingDigits, known] at count
        | cons first own =>
            obtain ⟨rfl, -⟩ := List.cons.inj split
            refine ⟨char :: own, after, split, count, fun other same => ?_⟩
            rw [List.cons_append, escape, if_pos octal]
            dsimp only
            rw [← List.cons_append, kept other same]
      · rw [if_neg octal] at read
        by_cases hex : char = 'x'
        · rw [if_pos hex] at read
          dsimp only at read
          split at read
          · cases read
          rename_i some
          cases read
          obtain ⟨own, after, rfl, count, kept⟩ := leadingDigits_all_own hexDigit? rest
          refine ⟨char :: own, after, rfl, by rw [List.length_cons, count, Nat.add_comm],
            ?_⟩
          intro other same
          rw [List.cons_append, escape, if_neg octal, if_pos hex]
          dsimp only
          rw [kept other same, if_neg some]
        · rw [if_neg hex] at read
          refine ⟨[char], rest, rfl, ?_, fun other _ => ?_⟩
          · split at read <;> cases read <;> rfl
          · rw [List.singleton_append, escape, if_neg octal, if_neg hex]
            exact read

theorem head?_append_cons (own : List Char) (char : Char) (after other : List Char) :
    (own ++ char :: other).head? = (own ++ char :: after).head? := by
  cases own <;> rfl

/-- A string ends at a quote, and nothing behind that has a part in how it is read. -/
theorem stringRest_own {text : List Char} {seen : Nat} {data : List UInt8} {total : Nat}
    (read : stringRest text seen = .ok (data, total)) :
    ∃ own after, text = own ++ '"' :: after ∧ total = seen + own.length + 1 ∧
      ∀ other, stringRest (own ++ '"' :: other) seen = .ok (data, total) := by
  induction size : text.length using Nat.strongRecOn generalizing text seen
    data total with
  | ind count hypothesis =>
  cases text with
  | nil =>
      rw [stringRest] at read
      cases read
  | cons char rest =>
      obtain rfl : rest.length + 1 = count := size
      rw [stringRest] at read
      by_cases ends : char = '\n'
      · rw [if_pos ends] at read
        cases read
      rw [if_neg ends] at read
      by_cases quote : char = '"'
      · rw [if_pos quote] at read
        cases read
        subst quote
        refine ⟨[], rest, rfl, rfl, fun other => ?_⟩
        rw [List.nil_append, stringRest, if_neg ends, if_pos rfl]
      rw [if_neg quote] at read
      by_cases backslash : char = '\\'
      · rw [if_pos backslash] at read
        cases escaped : escape rest with
        | error error =>
            rw [escaped] at read
            cases read
        | ok found =>
            obtain ⟨bytes, length⟩ := found
            rw [escaped] at read
            dsimp only at read
            obtain ⟨first, behind, rfl, rfl, kept⟩ := escape_own escaped
            rw [List.drop_left] at read
            cases inner : stringRest behind (seen + 1 + first.length) with
            | error failure =>
                rw [inner] at read
                cases read
            | ok following =>
                obtain ⟨more, sum⟩ := following
                rw [inner] at read
                cases read
                have shorter : behind.length < (first ++ behind).length + 1 := by
                  rw [List.length_append]
                  omega
                obtain ⟨own, after, rfl, rfl, again⟩ := hypothesis _ shorter inner rfl
                refine ⟨char :: (first ++ own), after, by simp, ?_, fun other => ?_⟩
                · rw [List.length_cons, List.length_append]
                  omega
                · rw [List.cons_append, List.append_assoc, stringRest, if_neg ends,
                    if_neg quote, if_pos backslash, kept _ (head?_append_cons _ _ _ _)]
                  dsimp only
                  rw [List.drop_left, again]
      · rw [if_neg backslash] at read
        cases inner : stringRest rest (seen + 1) with
        | error failure =>
            rw [inner] at read
            cases read
        | ok following =>
            obtain ⟨more, sum⟩ := following
            rw [inner] at read
            cases read
            obtain ⟨own, after, rfl, rfl, again⟩ :=
              hypothesis _ (Nat.lt_succ_self _) inner rfl
            refine ⟨char :: own, after, rfl, ?_, fun other => ?_⟩
            · rw [List.length_cons]
              omega
            · rw [List.cons_append, stringRest, if_neg ends, if_neg quote,
                if_neg backslash, again]

/-- The contents of a character literal are read by themselves. -/
theorem characterContents_own {text rest : List Char} {bytes : List UInt8} {length : Nat}
    (read : characterContents text = .ok (bytes, length, rest)) :
    ∃ own, text = own ++ rest ∧ own.length = length ∧
      ∀ other : List Char, other.head? = rest.head? ->
        characterContents (own ++ other) = .ok (bytes, length, other) := by
  cases text with
  | nil => cases read
  | cons char behind =>
      rw [characterContents] at read
      by_cases ends : char = '\n'
      · rw [if_pos ends] at read
        cases read
      rw [if_neg ends] at read
      by_cases backslash : char = '\\'
      · rw [if_pos backslash] at read
        cases escaped : escape behind with
        | error error =>
            rw [escaped] at read
            cases read
        | ok found =>
            obtain ⟨inner, count⟩ := found
            obtain ⟨own, after, rfl, rfl, kept⟩ := escape_own escaped
            rw [escaped] at read
            cases read
            rw [List.drop_left]
            refine ⟨char :: own, rfl, Nat.add_comm _ _, fun other same => ?_⟩
            rw [List.cons_append, characterContents, if_neg ends, if_pos backslash,
              kept other same]
            dsimp only
            rw [List.drop_left]
      · rw [if_neg backslash] at read
        cases read
        refine ⟨[char], rfl, rfl, fun other _ => ?_⟩
        rw [List.singleton_append, characterContents, if_neg ends, if_neg backslash]

/-- A character literal ends at a quote, and nothing behind that has a part in its
value. -/
theorem character_own {text : List Char} {value : Int} {total : Nat}
    (read : character text = .ok (value, total)) :
    ∃ own after, text = own ++ '\'' :: after ∧ total = own.length + 2 ∧
      ∀ other, character (own ++ '\'' :: other) = .ok (value, total) := by
  unfold character at read
  split at read
  · cases read
  · rename_i byte length after known
    obtain ⟨own, rfl, rfl, kept⟩ := characterContents_own known
    cases read
    refine ⟨own, after, rfl, rfl, fun other => ?_⟩
    rw [character, kept ('\'' :: other) rfl]
    rfl
  · cases read

end Quoted

/-! ## Pieces -/

namespace Lexer

theorem take_length_succ (own : List Char) (char : Char) (after : List Char) :
    (own ++ char :: after).take (own.length + 1) = own ++ [char] := by
  rw [List.append_cons, List.take_left' (by simp)]

/-- A token is cut in the same way whatever stands behind it, unless that goes on with
it. -/
theorem lexeme_own {char : Char} {rest : List Char} {found : Piece} {kind : TokenKind}
    (cut : lexeme char rest = .ok found) (token : found.kind = some kind)
    {tail : List Char} (detached : Detached tail) :
    lexeme char (rest.take found.more ++ tail) = .ok found := by
  rw [lexeme_eq_ok] at cut ⊢
  cases cut with
  | blank _ => cases token
  | @number value length noBlank digit scanned =>
      have some : 0 < length := Nat.zero_lt_of_lt (Number.scan_cases scanned).2
      refine .number noBlank digit ?_
      have own := Number.scan_own scanned detached
      rwa [← Nat.sub_add_cancel some, List.take_succ_cons, Nat.sub_add_cancel some] at own
  | string quote read =>
      obtain ⟨own, after, rfl, rfl, kept⟩ := Quoted.stringRest_own read
      refine .string quote ?_
      have count : 1 + own.length + 1 - 1 = own.length + 1 := by omega
      rw [count, take_length_succ, List.append_assoc, List.singleton_append]
      exact kept tail
  | character quote read =>
      obtain ⟨own, after, rfl, rfl, kept⟩ := Quoted.character_own read
      refine .character quote ?_
      rw [Nat.add_sub_cancel (m := 1), take_length_succ, List.append_assoc,
        List.singleton_append]
      exact kept tail
  | word plain start =>
      have same :=
        takeWhile_detached (show isWordPart ' ' = false by decide) rest detached
      rw [← List.prefix_iff_eq_take.mp (List.takeWhile_prefix isWordPart)]
      have word : Lexes char (rest.takeWhile isWordPart ++ tail) _ := .word plain start
      rwa [same] at word
  | long plain noWord punctuator =>
      cases rest with
      | nil => cases punctuator
      | cons next rest => exact .long plain noWord punctuator
  | short plain noWord noLong punctuation =>
      rw [List.take_zero, List.nil_append]
      refine .short plain noWord ?_ punctuation
      cases tail with
      | nil => rfl
      | cons next more =>
          obtain rfl := detached next rfl
          simp [startsLongPunctuator, longPunctuators]

/-- No lexeme that begins with a slash is longer than that. -/
theorem more_of_slash {rest : List Char} {found : Piece}
    (cut : lexeme '/' rest = .ok found) :
    found.more = 0 := by
  cases lexeme_eq_ok.mp cut with
  | blank _ => rfl
  | number _ digit _ => cases digit
  | string quote _ => cases quote
  | character quote _ => cases quote
  | word _ start => cases start
  | long _ _ punctuator =>
      cases rest with
      | nil => cases punctuator
      | cons next more => simp [startsLongPunctuator, longPunctuators] at punctuator
  | short _ _ _ _ => rfl

theorem piece_own {char : Char} {rest : List Char} {found : Piece} {kind : TokenKind}
    (cut : piece char rest = .ok found) (token : found.kind = some kind)
    {tail : List Char} (detached : Detached tail) :
    piece char (rest.take found.more ++ tail) = .ok found := by
  have lexed := lexeme_of_piece cut token
  have own := lexeme_own lexed token detached
  by_cases slash : char = '/'
  · subst slash
    -- The tail begins with a blank, so that the slash does not open a comment now.
    rw [more_of_slash lexed, List.take_zero, List.nil_append] at own ⊢
    cases tail with
    | nil => exact own
    | cons next more =>
        obtain rfl := detached next rfl
        exact own
  · rw [piece_of_ne_slash slash]
    exact own

end Lexer

/-! ## Writing tokens anew -/

/-- What a token is but for its place: its kind with the value of a literal, and its
text. -/
def Token.lexeme (token : Token) : TokenKind × String := (token.kind, token.text)

/-- The texts of tokens with a blank between each and the next. -/
def spaced (body : List Token) : List Char :=
  [' '].intercalate (body.map fun token => token.text.toList)

theorem toList_intercalate_text (body : List Token) :
    (" ".intercalate (body.map Token.text)).toList = spaced body := by
  rw [String.toList_intercalate, List.map_map]
  rfl

/-- What stands behind a token when others follow it. -/
def spacedBehind : List Token -> List Char
  | [] => []
  | token :: following => ' ' :: spaced (token :: following)

theorem detached_spacedBehind (following : List Token) :
    Detached (spacedBehind following) := by
  cases following with
  | nil => exact detached_nil
  | cons token following => exact detached_blank _

theorem spaced_cons (token : Token) (following : List Token) :
    spaced (token :: following) = token.text.toList ++ spacedBehind following := by
  cases following with
  | nil => simp [spaced, spacedBehind]
  | cons next following => simp [spaced, spacedBehind]

namespace Lexer

/-- Tokens that are written anew are cut again. -/
theorem tokens_spaced {text : List Char} {loc line : Nat}
    {body : List Token} {eof : Token}
    (cut : tokens text loc line = .ok (body, eof)) (place number : Nat) :
    ∃ again ending, tokens (spaced body) place number = .ok (again, ending) ∧
      again.map Token.lexeme = body.map Token.lexeme ∧ ending.lexeme = eof.lexeme := by
  induction size : text.length using Nat.strongRecOn
    generalizing text loc line body eof place number with
  | ind count hypothesis =>
  cases text with
  | nil =>
      rw [tokens] at cut
      cases cut
      refine ⟨[], ⟨.eof, "", place, number⟩, ?_, rfl, rfl⟩
      rw [show spaced [] = [] from rfl, tokens]
  | cons char rest =>
      obtain ⟨found, following, known, behind, rfl⟩ := tokens_cons_ok cut
      have shorter : (rest.drop found.more).length < count := by
        rw [← size, List.length_drop, List.length_cons]
        omega
      have rewritten (place number : Nat) := hypothesis _ shorter behind place number rfl
      cases kind : found.kind with
      | none => exact rewritten place number
      | some kind =>
          have own := piece_own known kind (detached_spacedBehind following)
          have count := List.length_take_of_le (piece_append known []).2
          have taken : (rest.take found.more ++ spacedBehind following).take found.more =
              rest.take found.more := List.take_left' count
          have dropped : (rest.take found.more ++ spacedBehind following).drop
              found.more = spacedBehind following := List.drop_left' count
          simp only [Option.map_some, Option.toList_some, List.singleton_append]
          rw [spaced_cons, String.toList_ofList, List.cons_append, tokens_cons own,
            taken, dropped, kind]
          cases following with
          | nil =>
              rw [spacedBehind, tokens]
              obtain ⟨again, ending, cutAgain, same, ends⟩ := rewritten place number
              rw [show spaced [] = [] from rfl, tokens] at cutAgain
              cases cutAgain
              exact ⟨_, _, rfl, rfl, ends⟩
          | cons next following =>
              rw [spacedBehind, tokens_blank]
              obtain ⟨again, ending, cutAgain, same, ends⟩ := rewritten _ _
              rw [cutAgain]
              refine ⟨_, _, rfl, ?_, ends⟩
              simp only [Option.map_some, Option.toList_some, List.singleton_append,
                List.map_cons] at same ⊢
              rw [same]
              rfl

end Lexer

/-- The texts of the tokens of a file, joined with single blanks, are cut into the same
tokens again: the same kinds, texts and values in the same order. -/
theorem tokenize_joined_tokens {file : SourceFile} {tokens : TokenStream}
    (cut : tokenize file = .ok tokens) (name : String) :
    ∃ again, tokenize ⟨name, " ".intercalate (tokens.body.toList.map Token.text)⟩ =
      .ok again ∧ again.toList.map Token.lexeme = tokens.toList.map Token.lexeme := by
  unfold tokenize at cut ⊢
  cases known : Lexer.tokens file.contents.toList 0 1 with
  | error error =>
      rw [known] at cut
      cases cut
  | ok parts =>
      obtain ⟨body, eof⟩ := parts
      rw [known] at cut
      cases cut
      obtain ⟨again, ending, cutAgain, same, ends⟩ := Lexer.tokens_spaced known 0 1
      rw [toList_intercalate_text, cutAgain]
      refine ⟨_, rfl, ?_⟩
      simp only [TokenStream.toList, List.map_append, same, List.map_cons,
        List.map_nil, ends]

/-- A file whose tokens have comments, blanks or nothing between them. -/
def denseTokens : SourceFile :=
  ⟨"t.c", "0x1F_=/**/=0 7\"\\x41\\\"/*\"'\\12'//\n->'''/\n/"⟩

/-- The tokens of that file are the same when they are written with single blanks. -/
theorem denseTokens_rewritten :
    ∃ tokens again, tokenize denseTokens = .ok tokens ∧
      tokenize ⟨"u.c", "0x1F _ = = 0 7 \"\\x41\\\"/*\" '\\12' -> ''' / /"⟩ = .ok again ∧
      tokens.toList.map Token.lexeme =
        [(.num 31, "0x1F"), (.identifier, "_"), (.punctuator, "="), (.punctuator, "="),
          (.num 0, "0"), (.num 7, "7"), (.str [65, 34, 47, 42, 0], "\"\\x41\\\"/*\""),
          (.num 10, "'\\12'"), (.punctuator, "->"), (.num 39, "'''"), (.punctuator, "/"),
          (.punctuator, "/"), (.eof, "")] ∧
      again.toList.map Token.lexeme = tokens.toList.map Token.lexeme := by
  have facts : (tokenize denseTokens).isOk = true ∧
      (tokenize denseTokens).toOption.map (fun tokens =>
        (tokens.toList.map Token.lexeme, " ".intercalate
          (tokens.body.toList.map Token.text))) =
      some ([(.num 31, "0x1F"), (.identifier, "_"), (.punctuator, "="),
        (.punctuator, "="),
          (.num 0, "0"), (.num 7, "7"), (.str [65, 34, 47, 42, 0], "\"\\x41\\\"/*\""),
          (.num 10, "'\\12'"), (.punctuator, "->"), (.num 39, "'''"), (.punctuator, "/"),
          (.punctuator, "/"), (.eof, "")],
        "0x1F _ = = 0 7 \"\\x41\\\"/*\" '\\12' -> ''' / /") := by decide +kernel
  have cut : tokenize denseTokens = .ok _ :=
    @eq_ok_of_isOk _ _ _ (⟨#[], ⟨.eof, "", 0, 0⟩⟩ : TokenStream) facts.1
  have texts := facts.2
  rw [cut] at texts
  obtain ⟨lexemes, joined⟩ := Prod.mk.inj (Option.some.inj texts)
  obtain ⟨again, cutAgain, same⟩ := tokenize_joined_tokens cut "u.c"
  rw [joined] at cutAgain
  exact ⟨_, again, cut, cutAgain, lexemes, same⟩

end MiniC
