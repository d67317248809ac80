import MiniC.Proofs.Token.Numerals

/-!
# What a string literal stands for

A string literal is written as a sequence of items: characters that stand for their own
bytes, and escapes that stand for one byte each.  An item ends where its form says, so an
item with few digits may not be written in front of a further digit.  Written between
quotes, items that keep to this are read as one token, and its data is what the items
stand for, one after the other, and a zero byte.
-/

namespace MiniC

/-- A digit of radix sixteen, written in one of two cases. -/
structure HexDigit where
  value : Fin 16
  upper : Bool
  deriving DecidableEq

/-- The character that a digit is written as. -/
def HexDigit.char (digit : HexDigit) : Char :=
  if digit.upper then (Nat.digitChar digit.value).toUpper else Nat.digitChar digit.value

/-- What stands between the quotes of a string literal is written in these items. -/
inductive StringItem
  | raw (char : Char)
  | escaped (char : Char)
  | octal (digits : List (Fin 8))
  | hex (digits : List HexDigit)
  deriving DecidableEq

/-- The octal digits. -/
def octalDigits : List Char := "01234567".toList

/-- The hexadecimal digits. -/
def hexDigits : List Char := "0123456789abcdefABCDEF".toList

/-- A text that begins with one of some characters. -/
def BeginsIn (chars : List Char) : List Char -> Prop
  | [] => False
  | char :: _ => char ∈ chars

instance (chars : List Char) : DecidablePred (BeginsIn chars)
  | [] => inferInstanceAs (Decidable False)
  | char :: _ => inferInstanceAs (Decidable (char ∈ chars))

namespace StringItem

/-- How an item is written. -/
def text : StringItem -> List Char
  | raw char => [char]
  | escaped char => ['\\', char]
  | octal digits => '\\' :: digits.map fun digit : Fin 8 => Nat.digitChar digit.val
  | hex digits => '\\' :: 'x' :: digits.map HexDigit.char

/-- The letters that stand for control codes when they are escaped. -/
def controls : List (Char × UInt8) :=
  [('a', 7), ('b', 8), ('t', 9), ('n', 10), ('v', 11), ('f', 12), ('r', 13), ('e', 27)]

/-- The bytes that an item stands for.  Of the value of digits the low eight bits
remain. -/
def bytes : StringItem -> List UInt8
  | raw char => String.utf8EncodeChar char
  | escaped char => [(controls.lookup char).getD (UInt8.ofNat char.toNat)]
  | octal digits => [UInt8.ofNat (Nat.ofDigits 8 (digits.reverse.map Fin.val))]
  | hex digits => [UInt8.ofNat (Nat.ofDigits 16 (digits.reverse.map (·.value.val)))]

/-- An item that may be written in front of a text. -/
def StandsBefore (behind : List Char) : StringItem -> Prop
  | raw char => char ≠ '"' ∧ char ≠ '\\' ∧ char ≠ '\n'
  | escaped char => char.toNat < 128 ∧ char ≠ 'x' ∧ char ∉ octalDigits
  | octal digits =>
      digits ≠ [] ∧ digits.length ≤ 3 ∧
      (digits.length < 3 -> ¬ BeginsIn octalDigits behind)
  | hex digits => digits ≠ [] ∧ ¬ BeginsIn hexDigits behind

instance (behind : List Char) (item : StringItem) :
    Decidable (item.StandsBefore behind) :=
  match item with
  | raw char => inferInstanceAs (Decidable (char ≠ '"' ∧ char ≠ '\\' ∧ char ≠ '\n'))
  | escaped char =>
      inferInstanceAs (Decidable (char.toNat < 128 ∧ char ≠ 'x' ∧ char ∉ octalDigits))
  | octal digits =>
      inferInstanceAs (Decidable (digits ≠ [] ∧ digits.length ≤ 3 ∧
        (digits.length < 3 -> ¬ BeginsIn octalDigits behind)))
  | hex digits => inferInstanceAs (Decidable (digits ≠ [] ∧ ¬ BeginsIn hexDigits behind))

/-- Items as they are written, and the quote that closes the literal. -/
def closed : List StringItem -> List Char
  | [] => ['"']
  | item :: rest => item.text ++ closed rest

theorem closed_ne_nil (items : List StringItem) : closed items ≠ [] := by
  cases items with
  | nil => exact List.cons_ne_nil _ _
  | cons item rest => exact List.append_ne_nil_of_right_ne_nil _ (closed_ne_nil rest)

/-- What stands behind a literal has no part in its items. -/
theorem StandsBefore.append {item : StringItem} {items : List StringItem}
    (fits : item.StandsBefore (closed items)) (rest : List Char) :
    item.StandsBefore (closed items ++ rest) := by
  have begins (chars : List Char) :
      BeginsIn chars (closed items ++ rest) = BeginsIn chars (closed items) := by
    cases text : closed items with
    | nil => exact absurd text (closed_ne_nil items)
    | cons char more => rfl
  cases item with
  | raw char => exact fits
  | escaped char => exact fits
  | octal digits => exact ⟨fits.1, fits.2.1, begins octalDigits ▸ fits.2.2⟩
  | hex digits => exact ⟨fits.1, begins hexDigits ▸ fits.2⟩

/-- Items each of which may be written in front of those behind it. -/
def Separated : List StringItem -> Prop
  | [] => True
  | item :: rest => item.StandsBefore (closed rest) ∧ Separated rest

instance : DecidablePred Separated
  | [] => inferInstanceAs (Decidable True)
  | item :: rest =>
      have : Decidable (Separated rest) := instDecidablePredListSeparated rest
      inferInstanceAs (Decidable (item.StandsBefore (closed rest) ∧ Separated rest))

end StringItem

/-! ## Digits -/

namespace Quoted

theorem octalDigit?_digitChar (digit : Fin 8) :
    octalDigit? (Nat.digitChar digit) = some digit.val := by
  decide +revert

theorem hexDigit?_char (digit : HexDigit) :
    hexDigit? digit.char = some digit.value.val := by
  obtain ⟨value, upper⟩ := digit
  decide +revert

/-- A character is found from the distance of its code to a lesser one. -/
theorem ofNat_add_sub {char : Char} {base : Nat} (low : base ≤ char.toNat) :
    Char.ofNat (base + (char.toNat - base)) = char := by
  rw [Nat.add_sub_cancel' low, Char.ofNat_toNat]

theorem octalDigit?_eq_none {char : Char} (other : char ∉ octalDigits) :
    octalDigit? char = none := by
  have listed : ∀ digit : Fin 8, Char.ofNat (48 + digit) ∈ octalDigits := by decide
  unfold octalDigit?
  refine if_neg fun ⟨low, high⟩ => other ?_
  have lowest : 48 ≤ char.toNat := low
  have highest : char.toNat ≤ 55 := high
  have member := listed ⟨char.toNat - 48, by omega⟩
  rwa [ofNat_add_sub lowest] at member

theorem hexDigit?_eq_none {char : Char} (other : char ∉ hexDigits) :
    hexDigit? char = none := by
  have decimal : ∀ digit : Fin 10, Char.ofNat (48 + digit) ∈ hexDigits := by decide
  have lower : ∀ digit : Fin 6, Char.ofNat (97 + digit) ∈ hexDigits := by decide
  have upper : ∀ digit : Fin 6, Char.ofNat (65 + digit) ∈ hexDigits := by decide
  unfold hexDigit?
  rw [if_neg, if_neg, if_neg]
  · rintro ⟨low, high⟩
    have lowest : 65 ≤ char.toNat := low
    have highest : char.toNat ≤ 70 := high
    have member := upper ⟨char.toNat - 65, by omega⟩
    exact other (by rwa [ofNat_add_sub lowest] at member)
  · rintro ⟨low, high⟩
    have lowest : 97 ≤ char.toNat := low
    have highest : char.toNat ≤ 102 := high
    have member := lower ⟨char.toNat - 97, by omega⟩
    exact other (by rwa [ofNat_add_sub lowest] at member)
  · rintro ⟨low, high⟩
    have lowest : 48 ≤ char.toNat := low
    have highest : char.toNat ≤ 57 := high
    have member := decimal ⟨char.toNat - 48, by omega⟩
    exact other (by rwa [ofNat_add_sub lowest] at member)

/-- Digits end in front of a text that does not begin with one. -/
theorem head?_eq_none {digit? : Char -> Option Nat} {chars behind : List Char}
    (ends : ¬ BeginsIn chars behind)
    (others : ∀ char, char ∉ chars -> digit? char = none) :
    ∀ next ∈ behind.head?, digit? next = none := by
  cases behind with
  | nil => simp
  | cons char rest =>
      rintro next ⟨⟩
      exact others char ends

/-- Written digits are read up to a character that is none. -/
theorem leadingDigits_map {digit? : Char -> Option Nat} {α : Type} {write : α -> Char}
    {value : α -> Nat} (read : ∀ digit, digit? (write digit) = some (value digit))
    (digits : List α) {behind : List Char}
    (ends : ∀ next ∈ behind.head?, digit? next = none) :
    leadingDigits digit? (digits.map write ++ behind) = digits.map value := by
  induction digits with
  | nil =>
      cases behind with
      | nil => rfl
      | cons next rest => simp [leadingDigits, ends next rfl]
  | cons digit rest hypothesis =>
      rw [List.map_cons, List.cons_append, leadingDigits, read, hypothesis]
      rfl

/-- Of written digits at least these are read. -/
theorem leadingDigits_take {digit? : Char -> Option Nat} {α : Type} {write : α -> Char}
    {value : α -> Nat} (read : ∀ digit, digit? (write digit) = some (value digit))
    (digits : List α) (behind : List Char) :
    (leadingDigits digit? (digits.map write ++ behind)).take digits.length =
      digits.map value := by
  induction digits with
  | nil => rfl
  | cons digit rest hypothesis =>
      rw [List.map_cons, List.cons_append, leadingDigits, read, List.length_cons,
        List.take_succ_cons, hypothesis]
      rfl

theorem digitsByte_eq (radix : Nat) (digits : List Nat) :
    digitsByte radix digits = UInt8.ofNat (Nat.ofDigits radix digits.reverse) :=
  congrArg UInt8.ofNat (Number.foldl_eq_ofDigits radix digits)

/-! ## Escapes -/

theorem controlCode?_eq_lookup (char : Char) :
    controlCode? char = StringItem.controls.lookup char := by
  unfold controlCode?
  split <;> try rfl
  exact (List.lookup_eq_none_iff.mpr (by simp_all [StringItem.controls])).symm

theorem utf8EncodeChar_of_lt {char : Char} (ascii : char.toNat < 128) :
    String.utf8EncodeChar char = [UInt8.ofNat char.toNat] := by
  have small : char.val.toNat ≤ 127 := Nat.le_of_lt_succ ascii
  unfold String.utf8EncodeChar
  simp only [if_pos small]
  rfl

/-- An item that is an escape is read behind its backslash, and nothing more. -/
theorem escape_item {item : StringItem} {behind : List Char}
    (fits : item.StandsBefore behind) {rest : List Char}
    (escaped : item.text = '\\' :: rest) :
    escape (rest ++ behind) = .ok (item.bytes, rest.length) := by
  cases item with
  | raw char => exact absurd (List.cons.inj escaped).1 fits.2.1
  | escaped char =>
      obtain ⟨ascii, notHex, notOctal⟩ := fits
      obtain ⟨-, rfl⟩ := List.cons.inj escaped
      rw [List.singleton_append, escape, octalDigit?_eq_none notOctal, if_neg (by decide),
        if_neg notHex, controlCode?_eq_lookup]
      cases known : StringItem.controls.lookup char with
      | some code => simp [StringItem.bytes, known]
      | none => simp [StringItem.bytes, known, utf8EncodeChar_of_lt ascii]
  | octal digits =>
      obtain ⟨written, short, alone⟩ := fits
      obtain ⟨-, rfl⟩ := List.cons.inj escaped
      have read : (leadingDigits octalDigit? (digits.map (fun digit : Fin 8 =>
          Nat.digitChar digit.val) ++ behind)).take 3 = digits.map Fin.val := by
        rcases Nat.lt_or_eq_of_le short with fewer | three
        · rw [leadingDigits_map octalDigit?_digitChar digits
            (head?_eq_none (alone fewer) fun _ => octalDigit?_eq_none),
              List.take_of_length_le]
          rw [List.length_map]
          exact short
        · rw [← three]
          exact leadingDigits_take octalDigit?_digitChar digits behind
      cases digits with
      | nil => exact absurd rfl written
      | cons digit digits =>
          rw [List.map_cons, List.cons_append] at read ⊢
          rw [escape, octalDigit?_digitChar, if_pos (by rfl), read]
          dsimp only
          rw [digitsByte_eq]
          simp [StringItem.bytes]
  | hex digits =>
      obtain ⟨written, ends⟩ := fits
      obtain ⟨-, rfl⟩ := List.cons.inj escaped
      have read := leadingDigits_map hexDigit?_char digits
        (head?_eq_none ends fun _ => hexDigit?_eq_none)
      have present : (digits.map fun digit => digit.value.val).isEmpty = false := by
        simpa using written
      rw [List.cons_append, escape, if_neg (by decide), if_pos rfl, read]
      dsimp only
      rw [present, if_neg (by decide), digitsByte_eq]
      simp [StringItem.bytes, Nat.add_comm]

/-- Behind an item that is read the rest of the literal is read. -/
theorem stringRest_item {item : StringItem} {behind : List Char}
    (fits : item.StandsBefore behind) (seen : Nat) :
    stringRest (item.text ++ behind) seen =
      (stringRest behind (seen + item.text.length)).map fun found =>
        (item.bytes ++ found.1, found.2) := by
  by_cases escaped : ∃ rest, item.text = '\\' :: rest
  · obtain ⟨rest, escaped⟩ := escaped
    rw [escaped, List.cons_append, stringRest, if_neg (by decide),
      if_neg (by decide), if_pos rfl, escape_item fits escaped]
    dsimp only
    rw [List.drop_left, List.length_cons, Nat.add_assoc, Nat.add_comm 1]
    cases stringRest behind (seen + (rest.length + 1)) <;> rfl
  · cases item with
    | raw char =>
        obtain ⟨notQuote, notBackslash, notBreak⟩ := fits
        change stringRest (char :: behind) seen = _
        rw [stringRest, if_neg notBreak, if_neg notQuote, if_neg notBackslash]
        change _ = (stringRest behind (seen + 1)).map _
        cases stringRest behind (seen + 1) <;> rfl
    | _ => exact absurd ⟨_, rfl⟩ escaped

/-- Items are read up to the closing quote. -/
theorem stringRest_closed {items : List StringItem} (fit : StringItem.Separated items)
    (rest : List Char) (seen : Nat) :
    stringRest (StringItem.closed items ++ rest) seen =
      .ok (items.flatMap StringItem.bytes ++ [0],
        seen + (StringItem.closed items).length) := by
  induction items generalizing seen with
  | nil =>
      change stringRest ('"' :: rest) seen = _
      rw [stringRest, if_neg (by decide), if_pos rfl]
      rfl
  | cons item items hypothesis =>
      obtain ⟨fits, others⟩ := fit
      rw [StringItem.closed, List.append_assoc, stringRest_item (fits.append rest),
        hypothesis others]
      simp [Except.map, Nat.add_assoc]

end Quoted

/-! ## Tokens -/

namespace Lexer

/-- A string literal at the front of a text is one token. -/
theorem tokens_string {items : List StringItem} (fit : StringItem.Separated items)
    (rest : List Char) (loc line : Nat) :
    tokens ('"' :: StringItem.closed items ++ rest) loc line =
      (tokens rest (loc + byteLength ('"' :: StringItem.closed items))
        (line + ('"' :: StringItem.closed items).count '\n')).map fun parts =>
          (⟨.str (items.flatMap StringItem.bytes ++ [0]),
            String.ofList ('"' :: StringItem.closed items), loc, line⟩ :: parts.1,
              parts.2) := by
  have read := Quoted.stringRest_closed fit rest 1
  have cut : piece '"' (StringItem.closed items ++ rest) =
      .ok ⟨some (.str (items.flatMap StringItem.bytes ++ [0])),
        1 + (StringItem.closed items).length - 1⟩ := by
    rw [piece_of_ne_slash (by decide)]
    exact lexeme_eq_ok.mpr (.string rfl read)
  rw [List.cons_append, tokens_cons cut]
  dsimp only
  rw [Nat.add_sub_cancel_left, List.take_left, List.drop_left]
  rfl

end Lexer

/-- A string literal decodes as written.  Items between quotes are read as one token that
spans the whole literal, wherever it stands and whatever stands behind it, and the data of
the token is what the items stand for, with a zero byte behind it. -/
theorem string_literal_decodes_as_written {items : List StringItem}
    (fit : StringItem.Separated items) :
    let literal := '"' :: StringItem.closed items
    let data := items.flatMap StringItem.bytes ++ [0]
    (∀ rest loc line, Lexer.tokens (literal ++ rest) loc line =
      (Lexer.tokens rest (loc + byteLength literal) (line + literal.count '\n')).map
        fun parts =>
        (⟨.str data, String.ofList literal, loc, line⟩ :: parts.1, parts.2)) ∧
    ∀ name, tokenize ⟨name, String.ofList literal⟩ =
      .ok ⟨#[⟨.str data, String.ofList literal, 0, 1⟩],
        ⟨.eof, "", byteLength literal, 1 + literal.count '\n'⟩⟩ := by
  refine ⟨Lexer.tokens_string fit, fun name => ?_⟩
  have alone := Lexer.tokens_string fit [] 0 1
  rw [List.append_nil, Lexer.tokens, Nat.zero_add] at alone
  rw [tokenize, String.toList_ofList, alone]
  rfl

/-- Items of every kind: a character of two bytes, escaped characters, and digits that end
in front of the next item. -/
def mixedItems : List StringItem :=
  [.raw 'é', .escaped 't', .hex [⟨1, false⟩, ⟨15, true⟩, ⟨4, false⟩, ⟨1, false⟩],
    .raw 'g', .octal [1, 0, 1], .raw '7', .octal [0], .escaped '"', .escaped '\n',
      .octal [7, 7, 7]]

/-- The literal that is written with them. -/
def mixedLiteral : String := "\"é\\t\\x1F41g\\1017\\0\\\"\\\n\\777\""

/-- These items decode as written. -/
theorem mixedItems_decode_as_written :
    StringItem.Separated mixedItems ∧
      String.ofList ('"' :: StringItem.closed mixedItems) = mixedLiteral ∧
      tokenize ⟨"t.c", mixedLiteral⟩ =
        .ok ⟨#[⟨.str [195, 169, 9, 65, 103, 65, 55, 0, 34, 10, 255, 0],
          mixedLiteral, 0, 1⟩], ⟨.eof, "", 28, 2⟩⟩ := by
  have facts : StringItem.Separated mixedItems ∧
      String.ofList ('"' :: StringItem.closed mixedItems) = mixedLiteral ∧
      mixedItems.flatMap StringItem.bytes ++ [0] =
        [195, 169, 9, 65, 103, 65, 55, 0, 34, 10, 255, 0] ∧
      byteLength ('"' :: StringItem.closed mixedItems) = 28 ∧
      ('"' :: StringItem.closed mixedItems).count '\n' = 1 := by decide +kernel
  obtain ⟨fit, written, data, length, breaks⟩ := facts
  have decoded := (string_literal_decodes_as_written fit).2 "t.c"
  rw [written, data, length, breaks] at decoded
  exact ⟨fit, written, decoded⟩

end MiniC
