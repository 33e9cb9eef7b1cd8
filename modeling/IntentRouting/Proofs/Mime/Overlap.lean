import IntentRouting.Mime
import IntentRouting.Proofs.Text.Cutting

/-!
# Overlap of types

A type with wildcards stands for types without them (`Mime.StandsFor`), and two types match exactly
if they stand for a common one (`Mime.accepts_iff_overlap`). This is decided part by part: parts meet
if they are equal or one of them is the wildcard, and then there is a token without asterisks that
both meet.

All this is about types whose asterisks are wildcards. An asterisk within a part is a character like
any other, and one that stands for the base alone counts for nothing.
-/

namespace IntentRouting.Mime

variable {type left right base subtype leftBase leftSubtype rightBase rightSubtype : String}

/-- Asterisks stand only for a whole subtype or, as both parts, for all types. -/
def HasPlainWildcards (type : String) : Prop :=
  ∀ base subtype, parts? type = some (base, subtype) →
    ('*' ∈ base.toList → type = any) ∧ ('*' ∈ subtype.toList → subtype = "*")

/-- A type without wildcards is one of those that a type stands for: all types, that type alone, or
all types of a base. -/
def StandsFor (type plain : String) : Prop :=
  type = any ∨ type = plain ∨
    ∃ base subtype, type = base ++ "/*" ∧ plain = base ++ "/" ++ subtype

section Parts

/-- A token that stands for itself alone. -/
structure IsPlainToken (part : String) : Prop where
  token : isToken part.toList = true
  plain : '*' ∉ part.toList

/-- A base or a subtype that stands for itself alone, or for everything. -/
structure IsPart (part : String) : Prop where
  token : isToken part.toList = true
  wildcard : '*' ∈ part.toList → part = "*"

/-- Whether two parts stand for a common token. -/
def Meets (left right : String) : Prop := left = "*" ∨ right = "*" ∨ left = right

theorem IsPlainToken.isPart (plain : IsPlainToken left) : IsPart left :=
  ⟨plain.token, fun wild => absurd wild plain.plain⟩

theorem IsPart.isPlainToken (part : IsPart left) (notWild : left ≠ "*") : IsPlainToken left :=
  ⟨part.token, mt part.wildcard notWild⟩

theorem IsPlainToken.ne_wildcard (plain : IsPlainToken left) : left ≠ "*" := by
  rintro rfl
  exact plain.plain (by decide)

theorem IsPlainToken.meets_iff (plain : IsPlainToken right) :
    Meets left right ↔ left = "*" ∨ left = right := by
  simp [Meets, plain.ne_wildcard]

/-- Parts meet exactly if both of them meet some token. -/
theorem meets_iff_exists (leftPart : IsPart left) (rightPart : IsPart right) :
    Meets left right ↔ ∃ token, IsPlainToken token ∧ Meets left token ∧ Meets right token := by
  constructor
  · intro meets
    by_cases leftWild : left = "*"
    · by_cases rightWild : right = "*"
      -- two wildcards meet in any token whatever
      · exact ⟨"x", ⟨by decide, by decide⟩, .inl leftWild, .inl rightWild⟩
      · exact ⟨right, rightPart.isPlainToken rightWild, .inl leftWild, .inr (.inr rfl)⟩
    · refine ⟨left, leftPart.isPlainToken leftWild, .inr (.inr rfl), ?_⟩
      rcases meets with wild | wild | same
      · exact absurd wild leftWild
      · exact .inl wild
      · exact .inr (.inr same.symm)
  · rintro ⟨token, plain, leftMeets, rightMeets⟩
    rw [plain.meets_iff] at leftMeets rightMeets
    rcases leftMeets with wild | rfl
    · exact .inl wild
    · right
      exact rightMeets.imp_right Eq.symm

theorem slash_notMem_of_isToken {characters : List Char} (token : isToken characters = true) :
    '/' ∉ characters := by
  intro slash
  rw [isToken, Bool.and_eq_true, List.all_eq_true] at token
  have allowed := token.2 '/' slash
  cases allowed

end Parts

section Types

/-- A type that is composed of a base and a subtype, with wildcards where they count. -/
structure IsComposed (type base subtype : String) : Prop where
  whole : type = base ++ "/" ++ subtype
  basePart : IsPart base
  subtypePart : IsPart subtype
  all : base = "*" → subtype = "*"

theorem IsComposed.cut? (composed : IsComposed type base subtype) :
    Text.cut? '/' type.toList = some (base.toList, subtype.toList) := by
  have noSlash := slash_notMem_of_isToken composed.basePart.token
  simpa [composed.whole] using Text.cut?_append noSlash

/-- There is one slash only, so a type is taken apart in one way. -/
theorem IsComposed.eq_of_append (composed : IsComposed type base subtype) {before after : String}
    (whole : type = before ++ "/" ++ after) : before = base ∧ after = subtype := by
  have inBase := slash_notMem_of_isToken composed.basePart.token
  have inSubtype := slash_notMem_of_isToken composed.subtypePart.token
  have slashes := congrArg (fun text => text.toList.count '/') (composed.whole.symm.trans whole)
  have counted : 1 = before.toList.count '/' + (after.toList.count '/' + 1) := by
    simpa [List.count_eq_zero.2 inBase, List.count_eq_zero.2 inSubtype] using slashes
  have noSlash : '/' ∉ before.toList := List.count_eq_zero.1 (by omega)
  have cut := composed.cut?
  rw [whole, String.toList_append, String.toList_append, List.append_assoc] at cut
  have same := (Text.cut?_append noSlash).symm.trans cut
  simpa [String.toList_inj] using same

theorem IsComposed.parts? (composed : IsComposed type base subtype) :
    Mime.parts? type = some (base, subtype) := by
  simp [Mime.parts?, composed.cut?]

theorem IsComposed.validate (composed : IsComposed type base subtype) :
    Mime.validate type = .ok () := by
  simp [Mime.validate, isValid, composed.cut?, composed.basePart.token, composed.subtypePart.token]

theorem isComposed_any : IsComposed any "*" "*" :=
  ⟨rfl, ⟨by decide, fun _ => rfl⟩, ⟨by decide, fun _ => rfl⟩, fun _ => rfl⟩

theorem exists_isComposed (valid : validate type = .ok ()) (plain : HasPlainWildcards type) :
    ∃ base subtype, IsComposed type base subtype := by
  cases cut : Text.cut? '/' type.toList with
  | none => simp [validate, isValid, cut] at valid
  | some halves =>
      rcases halves with ⟨before, after⟩
      have tokens : isToken before = true ∧ isToken after = true := by
        simpa [validate, isValid, cut] using valid
      have parts : parts? type = some (String.ofList before, String.ofList after) := by
        simp [parts?, cut]
      rcases plain _ _ parts with ⟨inBase, inSubtype⟩
      -- an asterisk in the base belongs to the type that stands for all types
      have both (wild : '*' ∈ before) : String.ofList before = "*" ∧ String.ofList after = "*" := by
        rw [inBase (by simpa using wild), isComposed_any.parts?] at parts
        simpa [eq_comm] using parts
      refine ⟨String.ofList before, String.ofList after, ?_, ?_, ?_, ?_⟩
      · rw [← String.toList_inj, Text.eq_append_of_cut? cut]
        simp
      · exact ⟨by simpa using tokens.1, fun wild => (both (by simpa using wild)).1⟩
      · exact ⟨by simpa using tokens.2, inSubtype⟩
      · intro wild
        have asterisk : before = ['*'] := by
          simpa using congrArg String.toList wild
        exact (both (by simp [asterisk])).2

theorem IsComposed.eq_iff (leftComposed : IsComposed left leftBase leftSubtype)
    (rightComposed : IsComposed right rightBase rightSubtype) :
    left = right ↔ leftBase = rightBase ∧ leftSubtype = rightSubtype := by
  constructor
  · rintro rfl
    have parts := leftComposed.parts?
    simpa [rightComposed.parts?, eq_comm] using parts
  · rintro ⟨rfl, rfl⟩
    rw [leftComposed.whole, rightComposed.whole]

theorem IsComposed.isAny_iff (composed : IsComposed type base subtype) :
    isAny type = true ↔ base = "*" ∧ subtype = "*" := by
  have composedOfTwo : type ≠ "*" := by
    rintro rfl
    cases composed.parts?
  simp [isAny, composedOfTwo, composed.eq_iff isComposed_any]

/-- Types match exactly if both of their parts meet. -/
theorem IsComposed.accepts_iff (leftComposed : IsComposed left leftBase leftSubtype)
    (rightComposed : IsComposed right rightBase rightSubtype) :
    accepts left right = true ↔ Meets leftBase rightBase ∧ Meets leftSubtype rightSubtype := by
  have leftAll := leftComposed.all
  have rightAll := rightComposed.all
  -- a wildcard as base comes with one as subtype, so meeting bases are equal or there is no subtype
  -- left to compare
  simp only [accepts, leftComposed.parts?, rightComposed.parts?, Bool.or_eq_true,
    Bool.and_eq_true, decide_eq_true_eq, leftComposed.isAny_iff, rightComposed.isAny_iff,
    leftComposed.eq_iff rightComposed, Meets]
  grind

end Types

section Overlap

variable {plain : String}

theorem accepts_comm (left right : String) : accepts left right = accepts right left := by
  rw [Bool.eq_iff_iff]
  simp only [accepts]
  cases parts? left <;> cases parts? right <;> grind

theorem plain_of_notMem (noWildcard : '*' ∉ type.toList) : HasPlainWildcards type := by
  intro base subtype parts
  simp only [parts?, Option.map_eq_some_iff] at parts
  rcases parts with ⟨⟨before, after⟩, cut, same⟩
  cases same
  have absent : '*' ∉ before ∧ '*' ∉ after := by
    simpa [Text.eq_append_of_cut? cut] using noWildcard
  simp [absent]

theorem isComposed_of_tokens (basePlain : IsPlainToken base) (subtypePlain : IsPlainToken subtype) :
    IsComposed (base ++ "/" ++ subtype) base subtype :=
  ⟨rfl, basePlain.isPart, subtypePlain.isPart, fun wild => absurd wild basePlain.ne_wildcard⟩

/-- A type without wildcards has two parts without asterisks. -/
theorem exists_isPlainToken (valid : validate plain = .ok ()) (noWildcard : '*' ∉ plain.toList) :
    ∃ base subtype, IsComposed plain base subtype ∧ IsPlainToken base ∧ IsPlainToken subtype := by
  rcases exists_isComposed valid (plain_of_notMem noWildcard) with ⟨base, subtype, composed⟩
  have absent : '*' ∉ base.toList ∧ '*' ∉ subtype.toList := by
    simpa [composed.whole] using noWildcard
  exact ⟨base, subtype, composed, ⟨composed.basePart.token, absent.1⟩,
    ⟨composed.subtypePart.token, absent.2⟩⟩

theorem append_wildcard (base : String) : base ++ "/" ++ "*" = base ++ "/*" := by
  rw [String.append_assoc]
  rfl

theorem IsComposed.standsFor_iff (leftComposed : IsComposed left leftBase leftSubtype)
    (composed : IsComposed plain base subtype) :
    StandsFor left plain ↔
      (leftBase = "*" ∨ leftBase = base) ∧ (leftSubtype = "*" ∨ leftSubtype = subtype) := by
  have leftAll := leftComposed.all
  have ofBase : (∃ base subtype, left = base ++ "/*" ∧ plain = base ++ "/" ++ subtype) ↔
      leftBase = base ∧ leftSubtype = "*" := by
    constructor
    · rintro ⟨before, after, whole, plainWhole⟩
      rw [← append_wildcard] at whole
      rcases leftComposed.eq_of_append whole with ⟨rfl, rfl⟩
      exact ⟨(composed.eq_of_append plainWhole).1, rfl⟩
    · rintro ⟨rfl, rfl⟩
      exact ⟨leftBase, subtype, leftComposed.whole.trans (append_wildcard leftBase), composed.whole⟩
  rw [StandsFor, ofBase, leftComposed.eq_iff isComposed_any, leftComposed.eq_iff composed]
  grind

/-- A type without wildcards is matched by the types that stand for it. -/
theorem IsComposed.accepts_plain_iff (leftComposed : IsComposed left leftBase leftSubtype)
    (valid : Mime.validate plain = .ok ()) (noWildcard : '*' ∉ plain.toList) :
    accepts left plain = true ↔ StandsFor left plain := by
  rcases exists_isPlainToken valid noWildcard with ⟨base, subtype, composed, basePlain, subtypePlain⟩
  rw [leftComposed.accepts_iff composed, basePlain.meets_iff, subtypePlain.meets_iff,
    leftComposed.standsFor_iff composed]

/-- Types match exactly if there is a type without wildcards that both of them match, and such a type
is matched by those that stand for it. It does not matter which one is asked for, and the type that
stands for all types matches every text. -/
theorem accepts_iff_overlap (leftValid : validate left = .ok ()) (leftPlain : HasPlainWildcards left)
    (rightValid : validate right = .ok ()) (rightPlain : HasPlainWildcards right) :
    (accepts left right = true ↔ ∃ type, validate type = .ok () ∧ '*' ∉ type.toList ∧
      accepts left type = true ∧ accepts right type = true) ∧
    (∀ type, validate type = .ok () → '*' ∉ type.toList →
      (accepts left type = true ↔ StandsFor left type)) ∧
    accepts left right = accepts right left ∧
    ∀ other, accepts any other = true ∧ accepts other any = true := by
  rcases exists_isComposed leftValid leftPlain with ⟨leftBase, leftSubtype, leftComposed⟩
  rcases exists_isComposed rightValid rightPlain with ⟨rightBase, rightSubtype, rightComposed⟩
  refine ⟨?_, fun _ => leftComposed.accepts_plain_iff, accepts_comm left right, ?_⟩
  · rw [leftComposed.accepts_iff rightComposed,
      meets_iff_exists leftComposed.basePart rightComposed.basePart,
      meets_iff_exists leftComposed.subtypePart rightComposed.subtypePart]
    constructor
    · rintro ⟨⟨base, basePlain, leftBaseMeets, rightBaseMeets⟩,
        ⟨subtype, subtypePlain, leftMeets, rightMeets⟩⟩
      have composed := isComposed_of_tokens basePlain subtypePlain
      refine ⟨base ++ "/" ++ subtype, composed.validate, ?_, ?_, ?_⟩
      · simp [basePlain.plain, subtypePlain.plain]
      · exact (leftComposed.accepts_iff composed).2 ⟨leftBaseMeets, leftMeets⟩
      · exact (rightComposed.accepts_iff composed).2 ⟨rightBaseMeets, rightMeets⟩
    · rintro ⟨type, valid, noWildcard, leftAccepts, rightAccepts⟩
      rcases exists_isPlainToken valid noWildcard with
        ⟨base, subtype, composed, basePlain, subtypePlain⟩
      rw [leftComposed.accepts_iff composed] at leftAccepts
      rw [rightComposed.accepts_iff composed] at rightAccepts
      exact ⟨⟨base, basePlain, leftAccepts.1, rightAccepts.1⟩,
        ⟨subtype, subtypePlain, leftAccepts.2, rightAccepts.2⟩⟩
  · intro other
    simp [accepts, isAny]

/-- What all images and those of one type have in common: all images stand for the one type, but not
for a type of text. -/
theorem png_overlaps :
    validate "image/*" = .ok () ∧ HasPlainWildcards "image/*" ∧ validate "image/png" = .ok () ∧
      HasPlainWildcards "image/png" ∧
        (∃ type, validate type = .ok () ∧ '*' ∉ type.toList ∧
          accepts "image/*" type = true ∧ accepts "image/png" type = true) ∧
        StandsFor "image/*" "image/png" ∧ ¬ StandsFor "image/*" "text/plain" := by
  have imagesValid : validate "image/*" = .ok () := rfl
  have images : HasPlainWildcards "image/*" := by
    rintro base subtype ⟨⟩
    decide
  have pngValid : validate "image/png" = .ok () := rfl
  have png : HasPlainWildcards "image/png" := plain_of_notMem (by decide)
  rcases accepts_iff_overlap imagesValid images pngValid png with ⟨overlap, standsFor, _⟩
  refine ⟨imagesValid, images, pngValid, png, overlap.1 (by decide), ?_, ?_⟩
  · exact (standsFor "image/png" rfl (by decide)).1 (by decide)
  · exact mt (standsFor "text/plain" rfl (by decide)).2 (by decide)

end Overlap

end IntentRouting.Mime
