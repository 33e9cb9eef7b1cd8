import IntentRouting.Component
import IntentRouting.Proofs.Text.Cutting

/-!
# Components as text

Whatever way the class of a component was given, in full or in short, its full name has a point in
it, and not at its front as long as the package does not begin with one. So a full name is never
taken for a short one (`fullClassName_idem`), and a component is read back from its full text. The
short text only leaves out what reading puts in front again.
-/

namespace IntentRouting

namespace Component

variable {package className : String} {component : Component}

/-- Packages that stand in front of a slash and of the classes in them without changing either. -/
structure IsPlainPackage (package : String) : Prop where
  someText : package ≠ ""
  noSlash : '/' ∉ package.toList
  noPoint : package.toList.head? ≠ some '.'

theorem parse_append (someText : package ≠ "") (noSlash : '/' ∉ package.toList)
    (someClass : className ≠ "") :
    parse (package ++ "/" ++ className) = .ok (.of package className) := by
  have cut : Text.cut? '/' (package.toList ++ '/' :: className.toList) =
      some (package.toList, className.toList) := Text.cut?_append noSlash
  simp [parse, cut, someText, someClass]

section FullNames

theorem fullClassName_of_relative (point : className.toList.head? = some '.') :
    fullClassName package className = package ++ className := by
  rw [fullClassName, if_pos point]

theorem fullClassName_of_qualified (noPoint : className.toList.head? ≠ some '.')
    (inside : '.' ∈ className.toList) : fullClassName package className = className := by
  rw [fullClassName, if_neg noPoint, if_pos (by simpa using inside)]

theorem fullClassName_of_bare (bare : '.' ∉ className.toList) :
    fullClassName package className = package ++ "." ++ className := by
  have noPoint : className.toList.head? ≠ some '.' :=
    fun point => bare (List.mem_of_mem_head? point)
  rw [fullClassName, if_neg noPoint, if_neg (by simpa using bare)]

theorem point_mem_fullClassName : '.' ∈ (fullClassName package className).toList := by
  by_cases point : className.toList.head? = some '.'
  · simp [fullClassName_of_relative point, List.mem_of_mem_head? point]
  by_cases inside : '.' ∈ className.toList
  · simpa [fullClassName_of_qualified point inside] using inside
  · simp [fullClassName_of_bare inside]

theorem fullClassName_ne_empty : fullClassName package className ≠ "" := by
  intro nothing
  have point : '.' ∈ (fullClassName package className).toList := point_mem_fullClassName
  simp [nothing] at point

theorem IsPlainPackage.head?_fullClassName (plain : IsPlainPackage package) :
    (fullClassName package className).toList.head? ≠ some '.' := by
  have leads (rest : String) : (package ++ rest).toList.head? = package.toList.head? := by
    have someText : package.toList ≠ [] := by
      simpa using plain.someText
    rcases List.exists_cons_of_ne_nil someText with ⟨first, more, whole⟩
    simp [whole]
  by_cases point : className.toList.head? = some '.'
  · rw [fullClassName_of_relative point, leads]
    exact plain.noPoint
  by_cases inside : '.' ∈ className.toList
  · rwa [fullClassName_of_qualified point inside]
  · rw [fullClassName_of_bare inside, String.append_assoc, leads]
    exact plain.noPoint

/-- A full name is one of its own. -/
theorem IsPlainPackage.fullClassName_idem (plain : IsPlainPackage package) (className : String) :
    fullClassName package (fullClassName package className) = fullClassName package className :=
  fullClassName_of_qualified plain.head?_fullClassName point_mem_fullClassName

end FullNames

section ShortNames

theorem relativeClass?_eq_some_iff {rest : List Char} :
    component.relativeClass? = some rest ↔
      component.className.toList = component.package.toList ++ rest ∧ rest.head? = some '.' := by
  simp [relativeClass?, Option.filter_eq_some_iff, Text.strip?_eq_some_iff]

/-- A class that is not continued from the package was given in full. -/
theorem fullClassName_of_relative_none (relative : (of package className).relativeClass? = none) :
    fullClassName package className = className := by
  have notContinued (rest : String) (point : rest.toList.head? = some '.') :
      fullClassName package className ≠ package ++ rest := by
    intro whole
    have found : (of package className).relativeClass? = some rest.toList :=
      relativeClass?_eq_some_iff.2 ⟨by simp [of, whole], point⟩
    rw [relative] at found
    cases found
  by_cases point : className.toList.head? = some '.'
  · exact absurd (fullClassName_of_relative point) (notContinued className point)
  by_cases inside : '.' ∈ className.toList
  · exact fullClassName_of_qualified point inside
  · have whole : fullClassName package className = package ++ ("." ++ className) := by
      rw [fullClassName_of_bare inside, String.append_assoc]
    exact absurd whole (notContinued ("." ++ className) (by simp))

end ShortNames

section Flattening

/-- A component that was made of the class of a package is read back from its short form. -/
theorem parse_short_of (className : String) (someText : package ≠ "")
    (noSlash : '/' ∉ package.toList) :
    parse (of package className).short = .ok (.of package className) := by
  have parsed (written : String) (someClass : written ≠ "")
      (same : fullClassName package written = fullClassName package className) :
      parse (package ++ "/" ++ written) = .ok (.of package className) := by
    rw [parse_append someText noSlash someClass, of, same, of]
  rw [short]
  cases relative : (of package className).relativeClass? with
  | some rest =>
      rcases relativeClass?_eq_some_iff.1 relative with ⟨whole, point⟩
      apply parsed
      · intro nothing
        have noRest : rest = [] := by
          simpa using nothing
        simp [noRest] at point
      · rw [fullClassName_of_relative (by simpa using point), ← String.toList_inj]
        simpa [of] using whole.symm
  | none =>
      have same := fullClassName_of_relative_none relative
      apply parsed
      · exact fullClassName_ne_empty
      · simp only [of, same]

theorem IsPlainPackage.parse_flat_of (plain : IsPlainPackage package) (className : String) :
    parse (of package className).flat = .ok (.of package className) := by
  have parsed : parse (package ++ "/" ++ fullClassName package className) = _ :=
    parse_append plain.someText plain.noSlash fullClassName_ne_empty
  rwa [of, plain.fullClassName_idem] at parsed

theorem eq_of_parse {text : String} {left right : Component} (leftParsed : parse text = .ok left)
    (rightParsed : parse text = .ok right) : left = right := by
  rw [leftParsed] at rightParsed
  exact Except.ok.inj rightParsed

/-- Components of plain packages are read back from both of their texts, whatever the class. So two
components that differ have neither text in common. -/
theorem survives_flattening (plain : IsPlainPackage package) (className : String) :
    parse (of package className).flat = .ok (of package className) ∧
    parse (of package className).short = .ok (of package className) ∧
    ∀ otherPackage otherClass, IsPlainPackage otherPackage →
      of package className ≠ of otherPackage otherClass →
        (of package className).flat ≠ (of otherPackage otherClass).flat ∧
        (of package className).short ≠ (of otherPackage otherClass).short ∧
        (of package className).flat ≠ (of otherPackage otherClass).short := by
  have flat := plain.parse_flat_of className
  have short := parse_short_of className plain.someText plain.noSlash
  refine ⟨flat, short, ?_⟩
  intro otherPackage otherClass otherPlain different
  have otherFlat := otherPlain.parse_flat_of otherClass
  have otherShort := parse_short_of otherClass otherPlain.someText otherPlain.noSlash
  refine ⟨?_, ?_, ?_⟩
  · intro same
    rw [same] at flat
    exact different (eq_of_parse flat otherFlat)
  · intro same
    rw [same] at short
    exact different (eq_of_parse short otherShort)
  · intro same
    rw [same] at flat
    exact different (eq_of_parse flat otherShort)

/-- The first class is nothing but points behind its package and left out of the short text. The
second one only begins like its package, and the third one is a class of another package, too. -/
theorem points_survive_flattening : IsPlainPackage "com.a" ∧ IsPlainPackage "com" ∧
    (of "com.a" "com.a../.").short = "com.a/../." ∧
    parse "com.a/../." = .ok ⟨"com.a", "com.a../."⟩ ∧
    (of "com.a" "com.ab/c").short = "com.a/com.ab/c" ∧
    parse "com.a/com.ab/c" = .ok ⟨"com.a", "com.ab/c"⟩ ∧
    (of "com.a" "b").className = (of "com" ".a.b").className ∧
    (of "com.a" "b").flat ≠ (of "com" ".a.b").short := by
  have plain : IsPlainPackage "com.a" := ⟨by decide, by decide, by decide⟩
  have otherPlain : IsPlainPackage "com" := ⟨by decide, by decide, by decide⟩
  refine ⟨plain, otherPlain, rfl, ?_, rfl, ?_, rfl, ?_⟩
  · exact (survives_flattening plain "com.a../.").2.1
  · exact (survives_flattening plain "com.ab/c").1
  · exact ((survives_flattening plain "b").2.2 "com" ".a.b" otherPlain (by decide)).2.2

end Flattening

end Component

end IntentRouting
