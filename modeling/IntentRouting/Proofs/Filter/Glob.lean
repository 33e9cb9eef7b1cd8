import IntentRouting.Pattern
import Mathlib.Data.List.Forall2

/-!
# What a glob matches

A glob is written token by token, and a path matches it if the path can be cut into pieces, one for
each token, that the tokens take. Both halves are stated without the machine that computes them:
`Pattern.IsWritten` says which text writes which tokens, `Pattern.Atom.Matches` which characters an
atom stands for, and `Pattern.Splits` which characters can be cut for some tokens.

Matching reads the path once and keeps marks at the tokens that may come next. A mark stands for what
the tokens from there on can take, so the marks together stand for a disjunction, `Pattern.Marked`.
Its two lemmas say what one pass over the marks does to it: after a character the tokens at a mark
have to take what remains, and a token that may take nothing passes its mark on.
-/

namespace IntentRouting.Pattern

/-! ## Tokens and the text that writes them -/

/-- The characters that write an atom. An asterisk that does not repeat an atom writes itself, and so
does a backslash at the end of a glob. -/
inductive Atom.IsWritten : List Char → Atom → Prop where
  | any : IsWritten ['.'] .any
  | escaped (c : Char) : IsWritten ['\\', c] (.only c)
  | plain {c : Char} (notAny : c ≠ '.') (notEscape : c ≠ '\\') : IsWritten [c] (.only c)

/-- The characters that write a sequence of tokens. An asterisk behind an atom repeats it. -/
inductive IsWritten : List Char → List Token → Prop where
  | nothing : IsWritten [] []
  | lastEscape : IsWritten ['\\'] [⟨.only '\\', false⟩]
  | once {written rest : List Char} {atom : Atom} {tokens : List Token}
      (writes : atom.IsWritten written) (single : rest.head? ≠ some '*')
      (later : IsWritten rest tokens) : IsWritten (written ++ rest) (⟨atom, false⟩ :: tokens)
  | repeated {written rest : List Char} {atom : Atom} {tokens : List Token}
      (writes : atom.IsWritten written) (later : IsWritten rest tokens) :
      IsWritten (written ++ '*' :: rest) (⟨atom, true⟩ :: tokens)

variable {token : Token} {tokens read : List Token} {glob characters rest : List Char} {c : Char}

theorem repeatLast_concat_once (read : List Token) (atom : Atom) :
    repeatLast (read ++ [⟨atom, false⟩]) = read ++ [⟨atom, true⟩] := by
  induction read with
  | nil => rfl
  | cons first read ih =>
      cases read with
      | nil => rfl
      | cons second read => exact congrArg (first :: ·) ih

/-- An asterisk writes itself where the last token cannot be repeated by it. -/
theorem repeatLast_of_repeated (last : ∀ token ∈ read.getLast?, token.repeated = true) :
    repeatLast read = read ++ [⟨.only '*', false⟩] := by
  induction read with
  | nil => rfl
  | cons first read ih =>
      cases read with
      | nil =>
          have isRepeated : first.repeated = true := last first rfl
          rw [repeatLast, if_pos isRepeated]
          rfl
      | cons second read => exact congrArg (first :: ·) (ih last)

theorem tokensFrom_atom {written : List Char} {atom : Atom} (writes : atom.IsWritten written)
    (last : written.head? = some '*' → ∀ token ∈ read.getLast?, token.repeated = true)
    (rest : List Char) :
    tokensFrom read (written ++ rest) = tokensFrom (read ++ [⟨atom, false⟩]) rest := by
  cases writes with
  | any => rfl
  | escaped c => rfl
  | @plain c notAny notEscape =>
      by_cases asterisk : c = '*'
      · subst asterisk
        rw [← repeatLast_of_repeated (last rfl)]
        rfl
      · simp [tokensFrom, notEscape]

/-- Tokens are read as they are written, whatever stands before them that an asterisk at the beginning
cannot repeat. -/
theorem IsWritten.tokensFrom_eq (written : IsWritten glob tokens)
    (last : glob.head? = some '*' → ∀ token ∈ read.getLast?, token.repeated = true) :
    tokensFrom read glob = read ++ tokens := by
  induction written generalizing read with
  | nothing => simp [tokensFrom]
  | lastEscape => rfl
  | @once written rest atom tokens writes single later ih =>
      rw [tokensFrom_atom writes ?_ rest, ih fun asterisk => absurd asterisk single,
        List.append_assoc, List.singleton_append]
      cases writes <;> exact last
  | @repeated written rest atom tokens writes later ih =>
      rw [tokensFrom_atom writes ?_, tokensFrom, repeatLast_concat_once, ih ?_, List.append_assoc,
        List.singleton_append]
      · intro _ token member
        simp only [List.getLast?_append, List.getLast?_singleton, Option.some_or,
          Option.mem_some_iff] at member
        rw [← member]
      · cases writes <;> exact last

theorem exists_atom (some : glob ≠ []) (notLast : glob ≠ ['\\']) :
    ∃ written rest atom, Atom.IsWritten written atom ∧ glob = written ++ rest ∧
      rest.length < glob.length := by
  rcases glob with _ | ⟨c, rest⟩
  · exact absurd rfl some
  · by_cases escape : c = '\\'
    · subst escape
      rcases rest with _ | ⟨c, rest⟩
      · exact absurd rfl notLast
      · exact ⟨['\\', c], rest, .only c, .escaped c, rfl, Nat.lt_add_of_pos_right Nat.two_pos⟩
    · by_cases any : c = '.'
      · exact ⟨['.'], rest, .any, .any, by rw [any]; rfl, by simp⟩
      · exact ⟨[c], rest, .only c, .plain any escape, rfl, by simp⟩

theorem exists_isWritten (glob : List Char) : ∃ tokens, IsWritten glob tokens := by
  induction length : glob.length using Nat.strongRecOn generalizing glob with
  | ind _ ih =>
    subst length
    by_cases none : glob = []
    · subst none
      exact ⟨[], .nothing⟩
    · by_cases lastEscape : glob = ['\\']
      · subst lastEscape
        exact ⟨_, .lastEscape⟩
      · rcases exists_atom none lastEscape with ⟨written, rest, atom, writes, rfl, shorter⟩
        by_cases asterisk : rest.head? = some '*'
        · rcases List.head?_eq_some_iff.1 asterisk with ⟨behind, rfl⟩
          rcases ih behind.length (Nat.lt_trans (by simp) shorter) behind rfl with ⟨tokens, later⟩
          exact ⟨_, .repeated writes later⟩
        · rcases ih rest.length shorter rest rfl with ⟨tokens, later⟩
          exact ⟨_, .once writes asterisk later⟩

/-- A glob writes exactly the tokens that are read from it. -/
theorem isWritten_iff : IsWritten glob tokens ↔ Pattern.tokens glob = tokens := by
  have reads {tokens : List Token} (written : IsWritten glob tokens) :
      Pattern.tokens glob = tokens :=
    written.tokensFrom_eq fun _ token member => by simp at member
  refine ⟨reads, ?_⟩
  rintro rfl
  rcases exists_isWritten glob with ⟨tokens, written⟩
  rwa [reads written]

/-! ## Cutting a path into pieces -/

/-- The characters that an atom stands for: all of them, or one alone. -/
inductive Atom.Matches : Atom → Char → Prop where
  | any (c : Char) : Matches .any c
  | only (c : Char) : Matches (.only c) c

theorem Atom.takes_iff {atom : Atom} : atom.takes c = true ↔ atom.Matches c := by
  cases atom with
  | any => exact iff_of_true rfl (.any c)
  | only expected =>
      rw [takes, decide_eq_true_iff]
      constructor
      · rintro rfl
        exact .only expected
      · rintro ⟨⟩
        rfl

/-- Whether a token takes a piece: one character, or any number of them if it is repeated. -/
def Token.Takes (token : Token) (piece : List Char) : Prop :=
  (token.repeated = true ∨ piece.length = 1) ∧ ∀ c ∈ piece, token.atom.Matches c

/-- Whether characters can be cut into pieces, one for each token, that the tokens take. -/
def Splits (tokens : List Token) (characters : List Char) : Prop :=
  ∃ pieces : List (List Char), pieces.flatten = characters ∧ List.Forall₂ Token.Takes tokens pieces

theorem splits_nil : Splits [] characters ↔ characters = [] := by
  constructor
  · rintro ⟨pieces, rfl, taken⟩
    cases taken
    rfl
  · rintro rfl
    exact ⟨[], rfl, .nil⟩

theorem splits_cons : Splits (token :: tokens) characters ↔
    ∃ piece rest, characters = piece ++ rest ∧ token.Takes piece ∧ Splits tokens rest := by
  constructor
  · rintro ⟨pieces, rfl, taken⟩
    cases taken with
    | @cons _ piece _ pieces takes taken =>
        exact ⟨piece, pieces.flatten, List.flatten_cons, takes, pieces, rfl, taken⟩
  · rintro ⟨piece, rest, rfl, takes, pieces, rfl, taken⟩
    exact ⟨piece :: pieces, List.flatten_cons, .cons takes taken⟩

/-- At the end of a path a token has to take nothing. -/
theorem splits_cons_nil :
    Splits (token :: tokens) [] ↔ token.repeated = true ∧ Splits tokens [] := by
  rw [splits_cons]
  constructor
  · rintro ⟨piece, rest, none, ⟨size, _⟩, later⟩
    rcases List.append_eq_nil_iff.1 none.symm with ⟨rfl, rfl⟩
    exact ⟨size.resolve_right (by simp), later⟩
  · rintro ⟨isRepeated, later⟩
    exact ⟨[], [], rfl, ⟨.inl isRepeated, by simp⟩, later⟩

/-- The tokens that come next when a token has taken a character. -/
def afterTaking (token : Token) (tokens : List Token) : List Token :=
  if token.repeated then token :: tokens else tokens

/-- The next character is taken by the first token, or the token takes nothing. -/
theorem splits_cons_cons : Splits (token :: tokens) (c :: rest) ↔
    token.atom.Matches c ∧ Splits (afterTaking token tokens) rest ∨
      token.repeated = true ∧ Splits tokens (c :: rest) := by
  rw [splits_cons, afterTaking]
  constructor
  · rintro ⟨piece, behind, whole, ⟨size, takes⟩, later⟩
    rcases piece with _ | ⟨first, piece⟩
    · right
      exact ⟨size.resolve_right (by simp), whole ▸ later⟩
    · left
      rw [List.cons_append, List.cons.injEq] at whole
      rcases whole with ⟨rfl, rfl⟩
      rw [List.forall_mem_cons] at takes
      refine ⟨takes.1, ?_⟩
      split
      · rename_i isRepeated
        exact splits_cons.2 ⟨piece, behind, rfl, ⟨.inl isRepeated, takes.2⟩, later⟩
      · rename_i once
        have alone : piece = [] := by simpa using size.resolve_left once
        rwa [alone]
  · rintro (⟨takes, later⟩ | ⟨isRepeated, later⟩)
    · split at later
      · rename_i isRepeated
        rcases splits_cons.1 later with ⟨piece, behind, rfl, ⟨_, takesRest⟩, later⟩
        exact ⟨c :: piece, behind, rfl,
          ⟨.inl isRepeated, List.forall_mem_cons.2 ⟨takes, takesRest⟩⟩, later⟩
      · exact ⟨[c], rest, rfl, ⟨.inr rfl, by simpa using takes⟩, later⟩
    · exact ⟨[], c :: rest, rfl, ⟨.inl isRepeated, by simp⟩, later⟩

theorem splits_cons_of_repeated (isRepeated : token.repeated = true)
    (later : Splits tokens characters) : Splits (token :: tokens) characters :=
  splits_cons.2 ⟨[], characters, rfl, ⟨.inl isRepeated, by simp⟩, later⟩

/-! ## Marks -/

/-- Whether the first token takes a character and leaves tokens with a property. -/
def Consumes (c : Char) (property : List Token → Prop) : List Token → Prop
  | [] => False
  | token :: tokens => token.atom.Matches c ∧ property (afterTaking token tokens)

/-- Some mark stands where the tokens that may come next have a property. The last mark stands
behind all tokens. -/
def Marked (property : List Token → Prop) : List Token → List Bool → Prop
  | token :: tokens, mark :: marks =>
      mark = true ∧ property (token :: tokens) ∨ Marked property tokens marks
  | [], mark :: _ => mark = true ∧ property []
  | _, [] => False

variable {property later : List Token → Prop} {marks : List Bool} {reached entered : Bool}

theorem not_marked_of_notMem (unmarked : true ∉ marks) : ¬ Marked property tokens marks := by
  induction marks generalizing tokens with
  | nil => cases tokens <;> exact id
  | cons mark marks ih =>
      rw [List.mem_cons, not_or] at unmarked
      have off : mark ≠ true := Ne.symm unmarked.1
      cases tokens with
      | nil => simp [Marked, off]
      | cons token tokens => simpa [Marked, off] using ih unmarked.2

theorem marked_replicate_false :
    ¬ Marked property tokens (List.replicate (tokens.length + 1) false) :=
  not_marked_of_notMem (by simp)

theorem length_skipRepeated (sized : marks.length = tokens.length + 1) :
    (skipRepeated reached tokens marks).length = tokens.length + 1 := by
  induction tokens generalizing marks reached with
  | nil =>
      rcases List.exists_of_length_succ marks sized with ⟨mark, _, rfl⟩
      rfl
  | cons token tokens ih =>
      rcases List.exists_of_length_succ marks sized with ⟨mark, marks, rfl⟩
      exact congrArg (· + 1) (ih (Nat.succ.inj sized))

theorem length_stepMarks (sized : marks.length = tokens.length + 1) :
    (stepMarks c entered tokens marks).length = tokens.length + 1 := by
  induction tokens generalizing marks entered with
  | nil =>
      rcases List.exists_of_length_succ marks sized with ⟨mark, _, rfl⟩
      rfl
  | cons token tokens ih =>
      rcases List.exists_of_length_succ marks sized with ⟨mark, marks, rfl⟩
      exact congrArg (· + 1) (ih (Nat.succ.inj sized))

/-- A mark is passed on over tokens that may take nothing. What it stands for is then what holds behind
some of them. -/
theorem marked_skipRepeated (atEnd : property [] ↔ later [])
    (skips : ∀ token tokens, property (token :: tokens) ↔
      later (token :: tokens) ∨ token.repeated = true ∧ property tokens)
    (sized : marks.length = tokens.length + 1) :
    Marked later tokens (skipRepeated reached tokens marks) ↔
      reached = true ∧ property tokens ∨ Marked property tokens marks := by
  induction tokens generalizing marks reached with
  | nil =>
      rcases List.exists_of_length_succ marks sized with ⟨mark, marks, rfl⟩
      simp only [skipRepeated, Marked, atEnd, Bool.or_eq_true]
      tauto
  | cons token tokens ih =>
      rcases List.exists_of_length_succ marks sized with ⟨mark, marks, rfl⟩
      rw [skipRepeated, Marked, Marked, ih (Nat.succ.inj sized), skips token tokens,
        Bool.and_eq_true, Bool.or_eq_true]
      tauto

/-- After a character, what comes next is what the tokens at the marks leave. -/
theorem marked_stepMarks (sized : marks.length = tokens.length + 1) :
    Marked property tokens (stepMarks c entered tokens marks) ↔
      entered = true ∧ property tokens ∨ Marked (Consumes c property) tokens marks := by
  induction tokens generalizing marks entered with
  | nil =>
      rcases List.exists_of_length_succ marks sized with ⟨mark, marks, rfl⟩
      simp [stepMarks, Marked, Consumes]
  | cons token tokens ih =>
      rcases List.exists_of_length_succ marks sized with ⟨mark, marks, rfl⟩
      rw [stepMarks, Marked, Marked, ih (Nat.succ.inj sized), Consumes, afterTaking,
        ← Atom.takes_iff]
      cases isRepeated : token.repeated with
      | false =>
          simp only [Bool.and_false, Bool.or_false, Bool.not_false, Bool.and_true, Bool.and_eq_true,
            Bool.false_eq_true, if_false]
          tauto
      | true =>
          simp only [Bool.and_true, Bool.not_true, Bool.and_false, Bool.or_eq_true,
            Bool.and_eq_true, Bool.false_eq_true, if_true]
          tauto

theorem getLastD_iff_marked (sized : marks.length = tokens.length + 1) :
    marks.getLastD false = true ↔ Marked (· = []) tokens marks := by
  induction tokens generalizing marks with
  | nil =>
      rcases List.exists_of_length_succ marks sized with ⟨mark, marks, rfl⟩
      obtain rfl : marks = [] := by simpa using sized
      simp [Marked]
  | cons token tokens ih =>
      rcases List.exists_of_length_succ marks sized with ⟨mark, marks, rfl⟩
      have sized : marks.length = tokens.length + 1 := Nat.succ.inj sized
      rcases List.exists_of_length_succ marks sized with ⟨next, marks, rfl⟩
      simpa [Marked] using ih sized

/-- Passing marks on changes nothing about what is kept by tokens that take nothing. -/
theorem marked_skipRepeated_of_kept (keeps : ∀ token tokens, token.repeated = true →
      property tokens → property (token :: tokens))
    (sized : marks.length = tokens.length + 1) :
    Marked property tokens (skipRepeated reached tokens marks) ↔
      reached = true ∧ property tokens ∨ Marked property tokens marks := by
  refine marked_skipRepeated Iff.rfl ?_ sized
  intro token tokens
  exact (or_iff_left_of_imp fun ⟨passes, holds⟩ => keeps token tokens passes holds).symm

/-- The induction is on the characters: the marks before a character stand for the tokens that can
take it and what follows. -/
theorem runMarks_iff (sized : marks.length = tokens.length + 1) :
    runMarks tokens (skipRepeated reached tokens marks) characters = true ↔
      reached = true ∧ Splits tokens characters ∨ Marked (Splits · characters) tokens marks := by
  induction characters generalizing marks reached with
  | nil =>
      rw [runMarks, getLastD_iff_marked (length_skipRepeated sized)]
      refine @marked_skipRepeated tokens (Splits · []) (· = []) marks reached ?_ ?_ sized
      · simp [splits_nil]
      · intro token tokens
        simp [splits_cons_nil]
  | cons c rest ih =>
      have skipped : (skipRepeated reached tokens marks).length = tokens.length + 1 :=
        length_skipRepeated sized
      have stepped : (stepMarks c false tokens (skipRepeated reached tokens marks)).length =
          tokens.length + 1 :=
        length_stepMarks skipped
      have next : Marked (Splits · rest) tokens
            (stepMarks c false tokens (skipRepeated reached tokens marks)) ↔
          reached = true ∧ Splits tokens (c :: rest) ∨
            Marked (Splits · (c :: rest)) tokens marks := by
        rw [marked_stepMarks skipped, or_iff_right (by simp)]
        refine @marked_skipRepeated tokens (Splits · (c :: rest)) (Consumes c (Splits · rest)) marks
          reached ?_ ?_ sized
        · simp [splits_nil, Consumes]
        · exact fun _ _ => splits_cons_cons
      rw [← next]
      simp only [runMarks]
      split
      · rw [ih stepped]
        simp
      · -- matching stops here, and nothing that a mark could stand for is left
        rename_i unmarked
        rw [List.contains_iff_mem] at unmarked
        have passedOn : ¬ Marked (Splits · rest) tokens (skipRepeated false tokens
            (stepMarks c false tokens (skipRepeated reached tokens marks))) :=
          not_marked_of_notMem unmarked
        rw [marked_skipRepeated_of_kept (fun _ _ => splits_cons_of_repeated) stepped] at passedOn
        simpa using passedOn

theorem matchesTokens_iff : matchesTokens tokens characters = true ↔ Splits tokens characters := by
  rw [matchesTokens, runMarks_iff (by simp)]
  simp [marked_replicate_false]

/-- A glob matches a path exactly if the path can be cut into pieces, one for each token that the glob
writes, such that each token takes its piece. -/
theorem accepts_glob_iff (glob path : String) :
    (⟨glob, .glob⟩ : Pattern).accepts path = true ↔
      ∃ tokens pieces, IsWritten glob.toList tokens ∧ pieces.flatten = path.toList ∧
        List.Forall₂ Token.Takes tokens pieces := by
  simp only [accepts, matchesTokens_iff, isWritten_iff, Splits, exists_eq_left', exists_and_left]

end IntentRouting.Pattern
