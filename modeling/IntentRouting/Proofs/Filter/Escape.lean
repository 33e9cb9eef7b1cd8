import IntentRouting.Filter.Basic
import IntentRouting.Proofs.Filter.Glob
import Mathlib.Logic.Relation

/-!
# Escapes at the end of a glob

A backslash takes the character behind it, and in a glob that ends too early it has none. Whether a
glob is of that kind is decided from its end, by counting backslashes, while its tokens are read
from its beginning, where backslashes go in pairs with what they take. Both have to agree on all
globs, for a rule is checked in the first way and its glob is read in the second.

Reading is taken apart into steps here (`Pattern.Reading.Step`), none of which reads a backslash
that takes nothing. What carries the agreement through a reading is the parity of the backslashes at
the end of what is left: an escape takes two of them or none, and any other step takes none.
-/

namespace IntentRouting

namespace Pattern

/-! ## Steps of a reading -/

/-- How far the reading of a glob has got. -/
structure Reading where
  /-- The tokens read so far. -/
  read : List Token
  /-- What is left of the glob. -/
  left : List Char

namespace Reading

/-- One step of a reading: an atom is read, or an asterisk that repeats the token before it if it
can. -/
inductive Step : Reading → Reading → Prop where
  | atom {written : List Char} {atom : Atom} (writes : atom.IsWritten written)
      (notAsterisk : written ≠ ['*']) (read : List Token) (rest : List Char) :
      Step ⟨read, written ++ rest⟩ ⟨read ++ [⟨atom, false⟩], rest⟩
  | asterisk (read : List Token) (rest : List Char) :
      Step ⟨read, '*' :: rest⟩ ⟨repeatLast read, rest⟩

/-- Some steps lead from one point of a reading to another one. -/
def Reaches : Reading → Reading → Prop := Relation.ReflTransGen Step

/-- The point at which nothing has been read. -/
def start (glob : List Char) : Reading := ⟨[], glob⟩

variable {before after : Reading}

theorem Step.tokensFrom_eq (step : Step before after) :
    tokensFrom before.read before.left = tokensFrom after.read after.left := by
  cases step with
  | asterisk read rest => rfl
  | @atom written atom writes notAsterisk read rest =>
      refine tokensFrom_atom writes ?_ rest
      intro asterisk
      -- of the characters that write an atom, only a lone asterisk begins with one
      cases writes with
      | any => simp at asterisk
      | escaped c => simp at asterisk
      | plain notAny notEscape =>
          rw [Option.some.inj asterisk] at notAsterisk
          exact absurd rfl notAsterisk

/-- What no step changes is the same at all points of a reading. -/
theorem Reaches.eq_of_forall_step {α : Type} (value : Reading → α)
    (kept : ∀ {before after}, Step before after → value before = value after)
    (reaches : before.Reaches after) : value before = value after := by
  induction reaches with
  | refl => rfl
  | tail _ step ih => exact ih.trans (kept step)

theorem Reaches.tokensFrom_eq (reaches : before.Reaches after) :
    tokensFrom before.read before.left = tokensFrom after.read after.left :=
  reaches.eq_of_forall_step (fun reading => tokensFrom reading.read reading.left)
    Step.tokensFrom_eq

theorem exists_step (read : List Token) {left : List Char} (goesOn : left ≠ [])
    (notLast : left ≠ ['\\']) :
    ∃ after, Step ⟨read, left⟩ after ∧ after.left.length < left.length := by
  rcases exists_atom goesOn notLast with ⟨written, rest, atom, writes, rfl, shorter⟩
  by_cases asterisk : written = ['*']
  · subst asterisk
    exact ⟨_, .asterisk read rest, shorter⟩
  · exact ⟨_, .atom writes asterisk read rest, shorter⟩

/-- A reading stops at the end of the glob or in front of a backslash that takes nothing. -/
theorem exists_reaches_stop (before : Reading) :
    ∃ read left, before.Reaches ⟨read, left⟩ ∧ (left = [] ∨ left = ['\\']) := by
  induction length : before.left.length using Nat.strongRecOn generalizing before with
  | ind _ ih =>
    subst length
    rcases before with ⟨read, left⟩
    by_cases stopped : left = [] ∨ left = ['\\']
    · exact ⟨read, left, .refl, stopped⟩
    · rw [not_or] at stopped
      rcases exists_step read stopped.1 stopped.2 with ⟨next, step, shorter⟩
      rcases ih next.left.length shorter next rfl with ⟨read, left, reaches, stops⟩
      exact ⟨read, left, reaches.head step, stops⟩

end Reading

/-! ## Backslashes at the end -/

/-- How many backslashes stand at the end of a glob. -/
def backslashesAtEnd (glob : List Char) : Nat := (glob.reverse.takeWhile (· = '\\')).length

theorem endsInsideEscape_glob_iff {glob : String} :
    (⟨glob, .glob⟩ : Pattern).endsInsideEscape = true ↔ backslashesAtEnd glob.toList % 2 = 1 := by
  simp [endsInsideEscape, backslashesAtEnd]

theorem backslashesAtEnd_le (glob : List Char) : backslashesAtEnd glob ≤ glob.length := by
  rw [← glob.length_reverse]
  exact (List.takeWhile_prefix _).length_le

/-- A character adds to the backslashes at the end only as a backslash in front of nothing else. -/
theorem backslashesAtEnd_cons (c : Char) (rest : List Char) : backslashesAtEnd (c :: rest) =
    if c = '\\' ∧ backslashesAtEnd rest = rest.length then rest.length + 1
    else backslashesAtEnd rest := by
  rw [backslashesAtEnd, List.reverse_cons, List.takeWhile_append, List.length_reverse,
    ← backslashesAtEnd]
  by_cases full : backslashesAtEnd rest = rest.length
  · by_cases escape : c = '\\' <;> simp [full, escape]
  · rw [if_neg full, if_neg (by simp [full]), ← backslashesAtEnd]

/-- An escape takes two backslashes from the end if a backslash is escaped and only backslashes
follow, and none otherwise. -/
theorem backslashesAtEnd_escaped (c : Char) (rest : List Char) :
    backslashesAtEnd ('\\' :: c :: rest) % 2 = backslashesAtEnd rest % 2 := by
  have bounded : backslashesAtEnd rest ≤ rest.length := backslashesAtEnd_le rest
  rw [backslashesAtEnd_cons, backslashesAtEnd_cons, List.length_cons]
  by_cases full : c = '\\' ∧ backslashesAtEnd rest = rest.length
  · rw [if_pos full, if_pos ⟨rfl, rfl⟩, full.2]
    omega
  · rw [if_neg full, if_neg (by omega)]

theorem backslashesAtEnd_cons_of_ne {c : Char} (notEscape : c ≠ '\\') (rest : List Char) :
    backslashesAtEnd (c :: rest) = backslashesAtEnd rest := by
  rw [backslashesAtEnd_cons, if_neg (by simp [notEscape])]

namespace Reading

variable {before after : Reading}

theorem Step.backslashesAtEnd_mod_two (step : Step before after) :
    backslashesAtEnd before.left % 2 = backslashesAtEnd after.left % 2 := by
  cases step with
  | asterisk read rest => rw [backslashesAtEnd_cons_of_ne (by decide)]
  | @atom written atom writes notAsterisk read rest =>
      cases writes with
      | any => exact congrArg (· % 2) (backslashesAtEnd_cons_of_ne (by decide) rest)
      | escaped c => exact backslashesAtEnd_escaped c rest
      | plain notAny notEscape =>
          exact congrArg (· % 2) (backslashesAtEnd_cons_of_ne notEscape rest)

theorem Reaches.backslashesAtEnd_mod_two (reaches : before.Reaches after) :
    backslashesAtEnd before.left % 2 = backslashesAtEnd after.left % 2 :=
  reaches.eq_of_forall_step (fun reading => backslashesAtEnd reading.left % 2)
    Step.backslashesAtEnd_mod_two

end Reading

/-! ## Globs that end inside an escape -/

open Reading

theorem endsInsideEscape_iff_reaches {glob : String} :
    (⟨glob, .glob⟩ : Pattern).endsInsideEscape = true ↔
      ∃ read, (start glob.toList).Reaches ⟨read, ['\\']⟩ := by
  rw [endsInsideEscape_glob_iff]
  constructor
  · intro odd
    rcases exists_reaches_stop (start glob.toList) with ⟨read, left, reaches, rfl | rfl⟩
    · have even : backslashesAtEnd glob.toList % 2 = 0 := reaches.backslashesAtEnd_mod_two
      omega
    · exact ⟨read, reaches⟩
  · rintro ⟨read, reaches⟩
    exact reaches.backslashesAtEnd_mod_two

/-- A glob does not end inside an escape exactly if steps read its tokens and nothing is left. -/
theorem endsInsideEscape_eq_false_iff_reaches {glob : String} :
    (⟨glob, .glob⟩ : Pattern).endsInsideEscape = false ↔
      (start glob.toList).Reaches ⟨tokens glob.toList, []⟩ := by
  rw [← Bool.not_eq_true, endsInsideEscape_glob_iff]
  constructor
  · intro notOdd
    rcases exists_reaches_stop (start glob.toList) with ⟨read, left, reaches, rfl | rfl⟩
    · have all : tokens glob.toList = read := reaches.tokensFrom_eq
      rwa [all]
    · exact absurd reaches.backslashesAtEnd_mod_two notOdd
  · intro reaches odd
    have even : backslashesAtEnd glob.toList % 2 = 0 := reaches.backslashesAtEnd_mod_two
    omega

end Pattern

namespace DataRule

/-- Of the patterns of a rule only its glob can end inside an escape. -/
theorem any_endsInsideEscape (rule : DataRule) : rule.patterns.any Pattern.endsInsideEscape =
    rule.pathGlob.any fun glob => (⟨glob, .glob⟩ : Pattern).endsInsideEscape := by
  rw [Bool.eq_iff_iff]
  simp [patterns, Pattern.endsInsideEscape, Option.any_eq_true]

/-- The check of a rule sees of its glob only whether there is one and whether it ends inside an
escape. -/
theorem validate_glob_iff (rule : DataRule) (glob : String) :
    { rule with pathGlob := some glob }.validate = .ok () ↔
      { rule with pathGlob := some "" }.validate = .ok () ∧
        (⟨glob, .glob⟩ : Pattern).endsInsideEscape = false := by
  have hasPath (glob : String) : { rule with pathGlob := some glob }.hasPath = true := by
    simp [DataRule.hasPath, patterns]
  have empty : (⟨"", .glob⟩ : Pattern).endsInsideEscape = false := by decide
  simp only [validate_eq_ok_iff, fault?, hasPath, any_endsInsideEscape, Option.any_some, empty]
  simp [and_assoc]

end DataRule

namespace Pattern

open Reading

/-- A glob is found to end inside an escape exactly if reading it from its beginning comes to a
backslash without a character behind it. Wherever a reading has got to, going on from there gives
the tokens of the glob. A rule with the glob is accepted exactly if it is with an empty glob and
such a reading goes to the end of the glob. -/
theorem dangling_escape_is_found (glob : String) :
    ((⟨glob, .glob⟩ : Pattern).endsInsideEscape = true ↔
      ∃ read, (start glob.toList).Reaches ⟨read, ['\\']⟩) ∧
    (∀ reading, (start glob.toList).Reaches reading →
      tokensFrom reading.read reading.left = tokens glob.toList) ∧
    ∀ rule : DataRule, { rule with pathGlob := some glob }.validate = .ok () ↔
      { rule with pathGlob := some "" }.validate = .ok () ∧
        (start glob.toList).Reaches ⟨tokens glob.toList, []⟩ := by
  refine ⟨endsInsideEscape_iff_reaches, ?_, ?_⟩
  · intro reading reaches
    exact reaches.tokensFrom_eq.symm
  · intro rule
    rw [DataRule.validate_glob_iff, endsInsideEscape_eq_false_iff_reaches]

/-- Behind an escaped backslash that is repeated, a last backslash takes nothing. -/
theorem backslash_behind_escape_is_found :
    (⟨"\\\\*\\", .glob⟩ : Pattern).endsInsideEscape = true ∧
      (start "\\\\*\\".toList).Reaches ⟨[⟨.only '\\', true⟩], ['\\']⟩ ∧
      tokens "\\\\*\\".toList = [⟨.only '\\', true⟩, ⟨.only '\\', false⟩] ∧
      ¬ (start "\\\\*\\".toList).Reaches ⟨tokens "\\\\*\\".toList, []⟩ := by
  rcases dangling_escape_is_found "\\\\*\\" with ⟨isFound, tokens_eq, accepted⟩
  have reaches : (start "\\\\*\\".toList).Reaches ⟨[⟨.only '\\', true⟩], ['\\']⟩ :=
    .head (.atom (.escaped '\\') (by decide) [] ['*', '\\']) (.single (.asterisk _ ['\\']))
  have valid : { DataRule.https "notes" with pathGlob := some "" }.validate = .ok () := by decide
  have refused : { DataRule.https "notes" with pathGlob := some "\\\\*\\" }.validate ≠ .ok () := by
    decide
  refine ⟨isFound.2 ⟨_, reaches⟩, reaches, (tokens_eq _ reaches).symm, ?_⟩
  intro readToEnd
  exact refused ((accepted (DataRule.https "notes")).2 ⟨valid, readToEnd⟩)

end Pattern

end IntentRouting
