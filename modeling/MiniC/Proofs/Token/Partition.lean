import MiniC.Proofs.Compile
import MiniC.Proofs.Token.Continuation

/-!
# What stands between the tokens

A text that is cut falls into its tokens and the gaps before, between and behind them.  A
gap holds blanks and complete comments only: a comment to the end of its line, or one to
the first mark that closes it.  `LaidText` says so of a text from its first character on,
as the tokens are cut; `TokenStream.Partitions` says it of offsets into the whole text.
-/

namespace MiniC

/-! ## Gaps -/

/-- Behind these characters a comment is closed, and not before. -/
def ClosesFirst (body : List Char) : Prop :=
  ∀ before after, body ++ ['*', '/'] = before ++ '*' :: '/' :: after -> after = []

/-- A text that begins with blanks and complete comments, and what stands behind them. -/
inductive Gap (rest : List Char) : List Char -> Prop
  | done : Gap rest rest
  | blank {char : Char} {text : List Char}
      (blank : char ∈ [' ', '\t', '\n', '\x0c', '\r'])
      (more : Gap rest text) :
      Gap rest (char :: text)
  | line {body text : List Char}
      (unbroken : '\n' ∉ body)
      (ends : ∀ next ∈ text.head?, next = '\n')
      (more : Gap rest text) :
      Gap rest ('/' :: '/' :: (body ++ text))
  | block {body text : List Char}
      (closes : ClosesFirst body)
      (more : Gap rest text) :
      Gap rest ('/' :: '*' :: (body ++ '*' :: '/' :: text))

/-- A text that begins with a mark that opens a comment. -/
def StartsComment (text : List Char) : Prop :=
  ∃ after, text = '/' :: '/' :: after ∨ text = '/' :: '*' :: after

namespace Lexer

theorem mem_blanks {char : Char} (blank : isBlank char = true) :
    char ∈ [' ', '\t', '\n', '\x0c', '\r'] := by
  simp only [isBlank, Bool.or_eq_true, beq_iff_eq] at blank
  simp only [List.mem_cons, List.not_mem_nil, or_false]
  rcases blank with (((rfl | rfl) | rfl) | rfl) | rfl <;> decide

/-- A comment is closed by the first mark that can close it. -/
theorem commentEnd?_cases {text : List Char} {length : Nat}
    (found : commentEnd? text = some length) :
    ∃ body after, text = body ++ '*' :: '/' :: after ∧ length = body.length + 2 ∧
      ClosesFirst body := by
  fun_induction commentEnd? text generalizing length with
  | case1 => cases found
  | case2 rest =>
      cases found
      refine ⟨[], rest, rfl, rfl, fun before after split => ?_⟩
      have short := congrArg List.length split
      simp only [List.nil_append, List.length_append, List.length_cons,
        List.length_nil] at short
      exact List.eq_nil_of_length_eq_zero (by omega)
  | case3 char rest other hypothesis =>
      obtain ⟨inner, known, rfl⟩ := Option.map_eq_some_iff.mp found
      obtain ⟨body, after, rfl, rfl, closes⟩ := hypothesis known
      refine ⟨char :: body, after, rfl, rfl, fun before behind split => ?_⟩
      cases before with
      | cons _ before => exact closes before behind (List.cons.inj split).2
      | nil =>
          -- the comment would be closed at its first character
          obtain ⟨star, slash⟩ := List.cons.inj split
          cases body with
          | nil => cases slash
          | cons next body =>
              obtain ⟨rfl, -⟩ := List.cons.inj slash
              exact (other _ star rfl).elim

/-- A piece that is no token is a blank or a comment. -/
theorem gap_of_piece {char : Char} {rest behind : List Char} {found : Piece}
    (cut : piece char rest = .ok found) (silent : found.kind = none)
    (gap : Gap behind (rest.drop found.more)) : Gap behind (char :: rest) := by
  unfold piece at cut
  split at cut
  · rename_i text
    cases cut
    have split : text = firstLine text ++ text.dropWhile (· ≠ '\n') :=
      List.takeWhile_append_dropWhile.symm
    have remains : ('/' :: text).drop (1 + (firstLine text).length) =
        text.dropWhile (· ≠ '\n') := by
      rw [Nat.add_comm, List.drop_succ_cons]
      nth_rewrite 2 [split]
      exact List.drop_left
    dsimp only at gap
    rw [remains] at gap
    rw [split]
    refine .line (fun member => ?_) (fun next first => ?_) gap
    · simpa using List.mem_takeWhile_imp member
    · have fails := List.head?_dropWhile_not (· ≠ '\n') text
      rw [Option.mem_def.mp first] at fails
      simpa using fails
  · rename_i text
    cases known : commentEnd? text with
    | none =>
        rw [known] at cut
        cases cut
    | some length =>
        obtain ⟨body, after, rfl, rfl, closes⟩ := commentEnd?_cases known
        rw [known] at cut
        cases cut
        have remains : ('*' :: (body ++ '*' :: '/' :: after)).drop
            (1 + (body.length + 2)) = after := by
          rw [Nat.add_comm, List.drop_succ_cons, List.drop_append]
          simp
        dsimp only at gap
        rw [remains] at gap
        exact .block closes gap
  · cases lexeme_eq_ok.mp cut with
    | blank isBlank => exact .blank (mem_blanks isBlank) gap
    | _ => cases silent

/-- A token does not begin like a comment. -/
theorem not_startsComment_of_piece {char : Char} {rest : List Char} {found : Piece}
    {kind : TokenKind} (cut : piece char rest = .ok found)
    (token : found.kind = some kind) :
    ¬ StartsComment (char :: rest) := by
  rintro ⟨after, opens | opens⟩
  · obtain ⟨rfl, rfl⟩ := List.cons.inj opens
    cases cut
    cases token
  · obtain ⟨rfl, rfl⟩ := List.cons.inj opens
    rw [piece] at cut
    split at cut <;> cases cut
    cases token

end Lexer

/-! ## Layouts -/

/-- A text from an offset on, as gaps with tokens between them. -/
inductive LaidText (eof : Token) : Nat -> List Char -> List Token -> Prop
  | last {loc : Nat} {text : List Char}
      (gap : Gap [] text)
      (kind : eof.kind = .eof)
      (empty : eof.text = "")
      (place : eof.loc = loc + byteLength text) :
      LaidText eof loc text []
  | token {loc : Nat} {skipped rest : List Char} {token : Token} {following : List Token}
      (gap : Gap (token.text.toList ++ rest) (skipped ++ (token.text.toList ++ rest)))
      (kind : token.kind ≠ .eof)
      (written : token.text ≠ "")
      (place : token.loc = loc + byteLength skipped)
      (plain : ¬ StartsComment (token.text.toList ++ rest))
      (more : LaidText eof (token.loc + token.length) rest following) :
      LaidText eof loc (skipped ++ (token.text.toList ++ rest)) (token :: following)

theorem byteLength_toList (text : String) :
    byteLength text.toList = text.utf8ByteSize := by
  have ofList (chars : List Char) :
      byteLength chars = (String.ofList chars).utf8ByteSize := by
    induction chars with
    | nil => rfl
    | cons char rest hypothesis =>
        rw [byteLength, hypothesis, ← List.singleton_append, String.ofList_append,
          String.utf8ByteSize_append]
        simp
  rw [ofList, String.ofList_toList]

/-- More to skip may stand in front. -/
theorem LaidText.skip {eof : Token} {loc : Nat} {cut text : List Char} {body : List Token}
    (skips : ∀ behind, Gap behind text -> Gap behind (cut ++ text))
    (layout : LaidText eof (loc + byteLength cut) text body) :
    LaidText eof loc (cut ++ text) body := by
  cases layout with
  | last gap kind empty place =>
      refine .last (skips _ gap) kind empty ?_
      rw [place, byteLength_append, Nat.add_assoc]
  | token gap kind written place plain more =>
      rw [← List.append_assoc]
      refine .token ?_ kind written ?_ plain more
      · rw [List.append_assoc]
        exact skips _ gap
      · rw [place, byteLength_append, Nat.add_assoc]

/-- The tokens of a text lay it out. -/
theorem Lexer.laidText_of_tokens {text : List Char} {loc line : Nat} {body : List Token}
    {eof : Token} (cut : tokens text loc line = .ok (body, eof)) :
    LaidText eof loc text body := by
  induction size : text.length using Nat.strongRecOn generalizing text loc
    line body eof with
  | ind count hypothesis =>
  cases text with
  | nil =>
      rw [tokens] at cut
      cases cut
      exact .last .done rfl rfl rfl
  | cons char rest =>
      obtain ⟨found, following, known, behind, rfl⟩ := tokens_cons_ok cut
      have shorter : (rest.drop found.more).length < count := by
        rw [← size, List.length_drop, List.length_cons]
        omega
      have layout := hypothesis _ shorter behind rfl
      have whole :
          char :: rest = char :: rest.take found.more ++ rest.drop found.more := by
        rw [List.cons_append, List.take_append_drop]
      cases token : found.kind with
      | none =>
          rw [whole]
          refine layout.skip fun behind gap => ?_
          rw [← whole]
          exact gap_of_piece known token gap
      | some kind =>
          let first :
              Token := ⟨kind, String.ofList (char :: rest.take found.more), loc, line⟩
          have written : first.text.toList = char :: rest.take found.more :=
            String.toList_ofList
          have notEof : first.kind ≠ .eof := by
            rintro rfl
            exact piece_ne_eof known token
          have nonempty : first.text ≠ "" := by
            intro empty
            rw [empty] at written
            cases written
          have plain : ¬ StartsComment (first.text.toList ++ rest.drop found.more) := by
            rw [written, ← whole]
            exact not_startsComment_of_piece known token
          have length : first.length = byteLength (char :: rest.take found.more) := by
            rw [← written, byteLength_toList]
            rfl
          rw [← length] at layout
          have laid : LaidText eof loc ([] ++ (first.text.toList ++ rest.drop found.more))
              (first :: following) :=
            .token .done notEof nonempty rfl plain layout
          rw [List.nil_append, written, ← whole] at laid
          exact laid

/-! ## Offsets -/

/-- What stands behind a byte offset. -/
def textFrom (text : List Char) (loc : Nat) : List Char := (splitAtByte text loc).2

/-- The offset behind a token. -/
def Token.stop (token : Token) : Nat := token.loc + token.length

/-- The offsets where the gaps before tokens begin and end, the first one from an offset
on. -/
def gapsFrom (loc : Nat) : List Token -> List (Nat × Nat)
  | [] => []
  | token :: following => (loc, token.loc) :: gapsFrom token.stop following

/-- The tokens and what stands between them make up a text: the tokens stand in their
order without overlap, at the places where they are written, and each begins and ends
between two characters; no token but the one at the end of the text is empty; before,
between and behind them stand gaps; and none begins like a comment. -/
structure TokenStream.Partitions (tokens : TokenStream) (text : List Char) : Prop where
  ordered : tokens.toList.Pairwise fun earlier later => earlier.stop ≤ later.loc
  nonempty : ∀ token ∈ tokens.body, token.kind ≠ .eof ∧ token.loc < token.stop
  ended : tokens.eof.kind = .eof ∧ tokens.eof.loc = byteLength text ∧
    tokens.eof.stop = byteLength text
  bounded : ∀ token ∈ tokens.toList, IsBoundary text token.loc ∧
    IsBoundary text token.stop
  written : ∀ token ∈ tokens.toList,
    textFrom text token.loc = token.text.toList ++ textFrom text token.stop
  gaps : ∀ range ∈ gapsFrom 0 tokens.toList,
    Gap (textFrom text range.2) (textFrom text range.1)
  uncommented : ∀ token ∈ tokens.body, ¬ StartsComment (textFrom text token.loc)

theorem splitAtByte_byteLength (before after : List Char) :
    splitAtByte (before ++ after) (byteLength before) = (before, after) := by
  induction before with
  | nil =>
      cases after with
      | nil => rfl
      | cons char rest =>
          have size := char.utf8Size_pos
          rw [List.nil_append, byteLength, splitAtByte, if_neg (by omega)]
  | cons char rest hypothesis =>
      rw [List.cons_append, byteLength, splitAtByte, if_pos (Nat.le_add_right _ _),
        Nat.add_sub_cancel_left, hypothesis]

theorem textFrom_byteLength (before after : List Char) :
    textFrom (before ++ after) (byteLength before) = after := by
  rw [textFrom, splitAtByte_byteLength]

namespace Token.StandsIn

variable {token : Token} {text : List Char}

/-- What stands from a token on is the token and what stands behind it. -/
theorem textFrom_eq (stands : token.StandsIn text) :
    textFrom text token.loc = token.text.toList ++ textFrom text token.stop := by
  obtain ⟨before, after, rfl, place⟩ := stands
  have stop : token.stop = byteLength (before ++ token.text.toList) := by
    rw [byteLength_append, byteLength_toList, ← place]
    rfl
  rw [stop, textFrom_byteLength, place, List.append_assoc, textFrom_byteLength]

theorem isBoundary_stop (stands : token.StandsIn text) : IsBoundary text token.stop := by
  obtain ⟨before, after, rfl, place⟩ := stands
  refine ⟨before ++ token.text.toList, after, rfl, ?_⟩
  rw [byteLength_append, byteLength_toList, ← place]
  rfl

end Token.StandsIn

namespace LaidText

variable {eof : Token} {loc : Nat} {text : List Char} {body : List Token}

theorem kind_eof (layout : LaidText eof loc text body) : eof.kind = .eof := by
  induction layout with
  | last _ kind _ _ => exact kind
  | token _ _ _ _ _ _ hypothesis => exact hypothesis

theorem stop_eof (layout : LaidText eof loc text body) : eof.stop = eof.loc := by
  induction layout with
  | last _ _ empty _ =>
      rw [Token.stop, Token.length, empty]
      rfl
  | token _ _ _ _ _ _ hypothesis => exact hypothesis

theorem loc_eof (layout : LaidText eof loc text body) :
    eof.loc = loc + byteLength text := by
  induction layout with
  | last _ _ _ place => exact place
  | token gap _ _ place _ _ hypothesis =>
      rw [hypothesis, place, byteLength_append, byteLength_append, byteLength_toList]
      simp only [Token.length]
      omega

theorem nonempty (layout : LaidText eof loc text body) :
    ∀ token ∈ body, token.kind ≠ .eof ∧ token.loc < token.stop := by
  induction layout with
  | last _ _ _ _ => simp
  | token _ kind written _ _ _ hypothesis =>
      refine List.forall_mem_cons.mpr ⟨⟨kind, ?_⟩, hypothesis⟩
      have some := mt String.utf8ByteSize_eq_zero_iff.mp written
      simp only [Token.stop, Token.length]
      omega

theorem ordered (layout : LaidText eof loc text body) :
    (∀ token ∈ body ++ [eof], loc ≤ token.loc) ∧
      (body ++ [eof]).Pairwise fun earlier later => earlier.stop ≤ later.loc := by
  induction layout with
  | last _ _ _ place => simp [place]
  | token _ _ _ place _ _ hypothesis =>
      obtain ⟨later, inOrder⟩ := hypothesis
      refine ⟨?_, List.pairwise_cons.mpr ⟨later, inOrder⟩⟩
      rw [List.cons_append, List.forall_mem_cons]
      refine ⟨by omega, fun other member => ?_⟩
      have := later other member
      omega

/-- Tokens of a part of a text stand in the whole, and none begins like a comment. -/
theorem stands {whole before : List Char} (layout : LaidText eof loc text body)
    (split : whole = before ++ text) (place : loc = byteLength before) :
    (∀ token ∈ body ++ [eof], token.StandsIn whole) ∧
      ∀ token ∈ body, ¬ StartsComment (textFrom whole token.loc) := by
  induction layout generalizing before with
  | @last loc text gap kind empty placed =>
      refine ⟨?_, by simp⟩
      simp only [List.nil_append, List.forall_mem_singleton]
      refine ⟨whole, [], by simp [empty], ?_⟩
      rw [placed, place, split, byteLength_append]
  | @token loc skipped rest token following gap kind written placed plain
    more hypothesis =>
      have own : token.loc = byteLength (before ++ skipped) := by
        rw [placed, place, byteLength_append]
      have cutAt : whole = before ++ skipped ++ (token.text.toList ++ rest) := by
        rw [split, List.append_assoc]
      have behind : token.loc + token.length =
          byteLength (before ++ skipped ++ token.text.toList) := by
        rw [byteLength_append, byteLength_toList, own]
        rfl
      have tail : whole = before ++ skipped ++ token.text.toList ++ rest := by
        rw [cutAt, List.append_assoc (before ++ skipped)]
      obtain ⟨others, uncommented⟩ := hypothesis tail behind
      refine ⟨List.forall_mem_cons.mpr ⟨⟨before ++ skipped, rest, ?_, own⟩, others⟩,
        List.forall_mem_cons.mpr ⟨?_, uncommented⟩⟩
      · rw [cutAt, List.append_assoc _ token.text.toList]
      · rw [own, cutAt, textFrom_byteLength]
        exact plain

theorem gaps {whole before : List Char} (layout : LaidText eof loc text body)
    (split : whole = before ++ text) (place : loc = byteLength before) :
    ∀ range ∈ gapsFrom loc (body ++ [eof]),
      Gap (textFrom whole range.2) (textFrom whole range.1) := by
  induction layout generalizing before with
  | @last loc text gap kind empty placed =>
      simp only [List.nil_append, gapsFrom, List.forall_mem_singleton]
      have finish : textFrom whole eof.loc = [] := by
        rw [placed, place, ← byteLength_append, ← split]
        simpa using textFrom_byteLength whole []
      rw [finish, place, split, textFrom_byteLength]
      exact gap
  | @token loc skipped rest token following gap kind written placed plain
    more hypothesis =>
      have own : token.loc = byteLength (before ++ skipped) := by
        rw [placed, place, byteLength_append]
      have cutAt : whole = before ++ skipped ++ (token.text.toList ++ rest) := by
        rw [split, List.append_assoc]
      have behind : token.loc + token.length =
          byteLength (before ++ skipped ++ token.text.toList) := by
        rw [byteLength_append, byteLength_toList, own]
        rfl
      rw [List.cons_append, gapsFrom, List.forall_mem_cons]
      refine ⟨?_,
        hypothesis (by rw [cutAt, List.append_assoc (before ++ skipped)]) behind⟩
      have start : textFrom whole loc = skipped ++ (token.text.toList ++ rest) := by
        rw [place, split, textFrom_byteLength]
      have finish : textFrom whole token.loc = token.text.toList ++ rest := by
        rw [own, cutAt, textFrom_byteLength]
      dsimp only
      rw [start, finish]
      exact gap

end LaidText

/-- The tokens of a file and the gaps between them make up its text. -/
theorem tokens_partition_text {file : SourceFile} {tokens : TokenStream}
    (cut : tokenize file = .ok tokens) : tokens.Partitions file.contents.toList := by
  unfold tokenize at cut
  cases known : Lexer.tokens file.contents.toList 0 1 with
  | error error =>
      rw [known] at cut
      cases cut
  | ok parts =>
      obtain ⟨body, eof⟩ := parts
      rw [known] at cut
      cases cut
      have layout := Lexer.laidText_of_tokens known
      have split : file.contents.toList = [] ++ file.contents.toList := rfl
      obtain ⟨stands, uncommented⟩ := layout.stands split rfl
      have last : eof.loc = byteLength file.contents.toList := by
        rw [layout.loc_eof, Nat.zero_add]
      exact
        { ordered := layout.ordered.2
          nonempty := by simpa using layout.nonempty
          ended := ⟨layout.kind_eof, last, layout.stop_eof.trans last⟩
          bounded := fun token member =>
            ⟨(stands token member).isBoundary, (stands token member).isBoundary_stop⟩
          written := fun token member => (stands token member).textFrom_eq
          gaps := layout.gaps split rfl
          uncommented := by simpa using uncommented }

/-- A file with quotes and comment marks in one another, escapes and characters of two
bytes. -/
def tangledFile : SourceFile :=
  ⟨"t.c", "/*\"é*/x=\"\\é/*//\"//é'\n\t'\\''/**//"⟩

/-- Five tokens and six gaps make up that text. -/
theorem tangledFile_is_partitioned :
    ∃ tokens, tokenize tangledFile = .ok tokens ∧
      tokens.toList.map (fun token => (token.loc, token.stop)) =
        [(7, 8), (8, 9), (9, 18), (25, 29), (33, 34), (34, 34)] ∧
      gapsFrom 0 tokens.toList = [(0, 7), (8, 8), (9, 9), (18, 25), (29, 33), (34, 34)] ∧
      tokens.Partitions tangledFile.contents.toList := by
  have facts : (tokenize tangledFile).isOk = true ∧
      (tokenize tangledFile).toOption.map (fun tokens =>
        (tokens.toList.map fun token => (token.loc, token.stop),
          gapsFrom 0 tokens.toList)) =
      some ([(7, 8), (8, 9), (9, 18), (25, 29), (33, 34), (34, 34)],
        [(0, 7), (8, 8), (9, 9), (18, 25), (29, 33), (34, 34)]) := by decide +kernel
  have cut : tokenize tangledFile = .ok _ :=
    @eq_ok_of_isOk _ _ _ (⟨#[], ⟨.eof, "", 0, 0⟩⟩ : TokenStream) facts.1
  have places := facts.2
  rw [cut] at places
  obtain ⟨spans, ranges⟩ := Prod.mk.inj (Option.some.inj places)
  exact ⟨_, cut, spans, ranges, tokens_partition_text cut⟩

end MiniC
