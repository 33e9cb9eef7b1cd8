import IntentRouting.Proofs.Text.Lenient
import IntentRouting.Proofs.Uri.Escapes
import IntentRouting.Uri.Path
import Mathlib.Algebra.Order.BigOperators.Group.List
import Mathlib.Algebra.Order.Group.Nat

/-!
# Room beneath a URI

Beneath every URI there are others that no finite number of URIs tells anything about: a segment
that is longer than all segments of the given URIs leads to a URI that lies beneath one of them only
if the URI above does. What is said about a finite number of URIs and everything beneath them is
therefore decided by the URIs themselves.
-/

namespace IntentRouting

namespace Uri

variable {uri : Uri} {segment : String}

/-- A segment that is appended is read back from its escapes. -/
theorem segments_under_of_ne (named : segment ≠ "") :
    (uri.under segment).segments = uri.segments ++ [segment] := by
  have noSlash : '/' ∉ encodeChars segment.toList := notMem_encodeChars (by decide) (by decide)
  have raw : rawSegments (encodeChars segment.toList) = [encodeChars segment.toList] := by
    simp [rawSegments, Text.split_of_not_mem noSlash, named]
  have bytes : decodeBytes (encodeChars segment.toList) = Text.Utf8.encode segment.toList := by
    simpa [decodeBytes] using decodeBytes_encodeChars segment.toList []
  have back : decodeLossy (encodeChars segment.toList) = segment := by
    have read := Text.Utf8.readsAs_encode segment.toList
    simp [decodeLossy, bytes, Text.Utf8.decodeLossy_eq_iff.2 read]
  simp [segments_under, raw, back]

/-- Segments without escapes, of any length. -/
def plainSegment (size : Nat) : String := String.ofList (List.replicate size 'a')

theorem segments_under_plainSegment (uri : Uri) (size : Nat) :
    (uri.under (plainSegment (size + 1))).segments = uri.segments ++ [plainSegment (size + 1)] := by
  apply segments_under_of_ne
  simp [plainSegment, ← String.toList_inj]

/-- Some segment is none of those of the given URIs. -/
theorem exists_plainSegment_notMem (others : List Uri) :
    ∃ size, ∀ other ∈ others, plainSegment (size + 1) ∉ other.segments := by
  refine ⟨((others.flatMap segments).map String.length).sum, ?_⟩
  intro other member inOther
  have among : (plainSegment (((others.flatMap segments).map String.length).sum + 1)).length ∈
      (others.flatMap segments).map String.length :=
    List.mem_map_of_mem (List.mem_flatMap.2 ⟨other, member, inOther⟩)
  have bounded := List.single_le_sum (fun _ _ => Nat.zero_le _) _ among
  rw [plainSegment, String.length_ofList, List.length_replicate] at bounded
  omega

/-- Beneath every URI there is one that is none of the given URIs and lies beneath no more of them.
-/
theorem exists_under_apart (uri : Uri) (others : List Uri) : ∃ segment, ∀ other ∈ others,
    uri.under segment ≠ other ∧
      ((uri.under segment).isBeneath other = true → uri.isBeneath other = true) := by
  rcases exists_plainSegment_notMem others with ⟨size, absent⟩
  have segments := segments_under_plainSegment uri size
  refine ⟨plainSegment (size + 1), ?_⟩
  intro other member
  constructor
  · intro same
    apply absent other member
    simp [← same, segments]
  · intro beneath
    rw [isBeneath_iff, segments] at beneath
    rcases beneath with ⟨scheme, authority, leading⟩
    refine isBeneath_iff.2 ⟨scheme, authority, ?_⟩
    rcases List.prefix_concat_iff.1 leading with whole | leading
    · exact absurd (by simp [whole]) (absent other member)
    · exact leading

end Uri

end IntentRouting
