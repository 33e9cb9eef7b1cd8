import IntentRouting.Text.Split

/-!
# Where a text is cut

No separator stands before the first one, and none behind the last one. So a cut is determined by
its two sides, and it is found again in every text that is put together of such sides. The readers
of URIs and links are only ever looked at through these statements.
-/

namespace IntentRouting.Text

variable {separator first : Char} {characters before after start rest more : List Char}

theorem cut_append (absent : separator ∉ before) :
    cut separator (before ++ separator :: after) = (before, some after) := by
  induction before with
  | nil => simp [cut]
  | cons c before ih =>
      rw [List.mem_cons, not_or] at absent
      rw [List.cons_append, cut, if_neg (Ne.symm absent.1), ih absent.2]

theorem cut_of_notMem (absent : separator ∉ characters) :
    cut separator characters = (characters, none) := by
  induction characters with
  | nil => rfl
  | cons c characters ih =>
      rw [List.mem_cons, not_or] at absent
      rw [cut, if_neg (Ne.symm absent.1), ih absent.2]

/-- Characters are without the separator, or they are cut at the first one. -/
theorem cut_cases (separator : Char) (characters : List Char) :
    separator ∉ characters ∧ cut separator characters = (characters, none) ∨
      ∃ before after, separator ∉ before ∧ characters = before ++ separator :: after ∧
        cut separator characters = (before, some after) := by
  by_cases present : separator ∈ characters
  · right
    rcases List.eq_append_cons_of_mem present with ⟨before, after, rfl, absent⟩
    exact ⟨before, after, absent, rfl, cut_append absent⟩
  · left
    exact ⟨present, cut_of_notMem present⟩

theorem notMem_cut : separator ∉ (cut separator characters).1 := by
  rcases cut_cases separator characters with ⟨absent, cut⟩ | ⟨before, after, absent, _, cut⟩
  · rwa [cut]
  · rwa [cut]

theorem cut_append_rest (separator : Char) (characters : List Char) :
    (cut separator characters).1 ++
      ((cut separator characters).2.map (separator :: ·)).getD [] = characters := by
  rcases cut_cases separator characters with ⟨_, cut⟩ | ⟨before, after, _, whole, cut⟩
  · simp [cut]
  · simp only [cut, Option.map_some, Option.getD_some]
    exact whole.symm

theorem mem_of_mem_cut {c : Char} (member : c ∈ (cut separator characters).1) : c ∈ characters := by
  rw [← cut_append_rest separator characters]
  exact List.mem_append_left _ member

/-- Behind a text and a separator, the first cut is in the text or right behind it. -/
theorem exists_append_eq_cut_append (separator : Char) (characters more : List Char) :
    ∃ rest, characters ++ separator :: more =
        (cut separator characters).1 ++ separator :: rest ∧
      ∀ c ∈ rest, c ∈ characters ∨ c = separator ∨ c ∈ more := by
  rcases cut_cases separator characters with ⟨_, cut⟩ | ⟨before, after, _, whole, cut⟩
  · refine ⟨more, by rw [cut], ?_⟩
    intro c member
    exact .inr (.inr member)
  · refine ⟨after ++ separator :: more, ?_, ?_⟩
    · rw [cut, whole]
      simp
    intro c member
    simp only [List.mem_append, List.mem_cons] at member
    rcases member with inAfter | behind
    · left
      simp [whole, inAfter]
    · right
      exact behind

theorem cut?_append (absent : separator ∉ before) :
    cut? separator (before ++ separator :: after) = some (before, after) := by
  rw [cut?, cut_append absent]

theorem eq_append_of_cut? (cut : cut? separator characters = some (before, after)) :
    characters = before ++ separator :: after := by
  rcases cut_cases separator characters with ⟨_, found⟩ | ⟨left, right, _, whole, found⟩
  · simp [cut?, found] at cut
  · simp only [cut?, found, Option.some.injEq, Prod.mk.injEq] at cut
    simpa [cut] using whole

/-- What stands between two separators is a part of the text. -/
theorem infix_of_mem_split {part : List Char} (member : part ∈ split separator characters) :
    part <:+: characters := by
  induction length : characters.length using Nat.strongRecOn generalizing characters with
  | ind n ih =>
      rcases cut_cases separator characters with ⟨absent, _⟩ | ⟨before, after, absent, whole, _⟩
      · simp only [split_of_not_mem absent, List.mem_singleton] at member
        simp [member]
      · simp only [whole, split_append_separator, split_of_not_mem absent, List.mem_append,
          List.mem_singleton] at member
        rcases member with rfl | later
        · exact ⟨[], separator :: after, by simp [whole]⟩
        · have shorter : after.length < n := by
            simp only [whole, List.length_append, List.length_cons] at length
            omega
          apply (ih after.length shorter later rfl).trans
          exact ⟨before ++ [separator], [], by simp [whole]⟩

theorem cutLast?_eq_none_iff : cutLast? separator characters = none ↔ separator ∉ characters := by
  induction characters with
  | nil => simp [cutLast?]
  | cons c characters ih =>
      cases cut : cutLast? separator characters with
      | none =>
          have absent := ih.1 cut
          by_cases same : c = separator
          · simp [cutLast?, cut, same]
          · simp [cutLast?, cut, same, Ne.symm same, absent]
      | some parts =>
          have present : separator ∈ characters := by
            by_cases absent : separator ∈ characters
            · exact absent
            · rw [ih.2 absent] at cut
              cases cut
          simp [cutLast?, cut, present]

theorem cutLast?_append (absent : separator ∉ after) :
    cutLast? separator (before ++ separator :: after) = some (before, after) := by
  induction before with
  | nil => simp [cutLast?, cutLast?_eq_none_iff.2 absent]
  | cons c before ih => simp [cutLast?, ih]

theorem eq_append_of_cutLast? (cut : cutLast? separator characters = some (before, after)) :
    characters = before ++ separator :: after ∧ separator ∉ after := by
  induction characters generalizing before with
  | nil => cases cut
  | cons c characters ih =>
      rw [cutLast?] at cut
      cases later : cutLast? separator characters with
      | none =>
          rw [later] at cut
          simp only [Option.ite_none_right_eq_some, Option.some.injEq, Prod.mk.injEq] at cut
          rcases cut with ⟨rfl, rfl, rfl⟩
          exact ⟨rfl, cutLast?_eq_none_iff.1 later⟩
      | some parts =>
          rw [later] at cut
          cases cut
          rcases ih later with ⟨whole, absent⟩
          exact ⟨by rw [whole, List.cons_append], absent⟩

theorem strip?_eq_some_iff : strip? start characters = some rest ↔ characters = start ++ rest := by
  induction start generalizing characters with
  | nil => simp [strip?]
  | cons expected start ih =>
      cases characters with
      | nil => simp [strip?]
      | cons c characters =>
          by_cases same : c = expected
          · simp [strip?, same, ih]
          · simp [strip?, same]

theorem isSome_strip?_iff : (strip? start characters).isSome = true ↔ start <+: characters := by
  rw [Option.isSome_iff_exists]
  constructor
  · rintro ⟨rest, stripped⟩
    exact ⟨rest, (strip?_eq_some_iff.1 stripped).symm⟩
  · rintro ⟨rest, rfl⟩
    exact ⟨rest, strip?_eq_some_iff.2 rfl⟩

theorem strip?_append : strip? start (start ++ rest) = some rest := strip?_eq_some_iff.2 rfl

/-- A beginning that holds no separator ends before it. -/
theorem prefix_append_separator_iff (absent : separator ∉ start) :
    start <+: before ++ separator :: after ↔ start <+: before := by
  constructor
  · intro leads
    rcases List.prefix_or_prefix_of_prefix leads (List.prefix_append before _) with short | long
    · exact short
    · rcases long with ⟨further, rfl⟩
      cases further with
      | nil => simp
      | cons c further =>
          rw [List.prefix_append_right_inj, List.cons_prefix_cons] at leads
          exact absurd (by simp [leads.1]) absent
  · intro leads
    exact leads.trans (List.prefix_append before _)

theorem cutLastText?_of_notMem (absent : first ∉ characters) :
    cutLastText? (first :: more) characters = none := by
  induction characters with
  | nil => rfl
  | cons c characters ih =>
      rw [List.mem_cons, not_or] at absent
      rw [cutLastText?, ih absent.2]
      simp [strip?, Ne.symm absent.1]

/-- A text that begins with a character which is nowhere else in it or behind it is found last. -/
theorem cutLastText?_append (notMore : first ∉ more) (notAfter : first ∉ after) :
    cutLastText? (first :: more) (before ++ (first :: more ++ after)) = some (before, after) := by
  induction before with
  | nil =>
      have absent : first ∉ more ++ after := by
        simp [notMore, notAfter]
      rw [List.nil_append, List.cons_append, cutLastText?, cutLastText?_of_notMem absent,
        ← List.cons_append, strip?_append]
      rfl
  | cons c before ih => rw [List.cons_append, cutLastText?, ih]

theorem eq_append_of_cutLastText? {text : List Char}
    (cut : cutLastText? text characters = some (before, after)) :
    characters = before ++ (text ++ after) := by
  induction characters generalizing before with
  | nil =>
      rw [cutLastText?, Option.map_eq_some_iff] at cut
      rcases cut with ⟨rest, stripped, same⟩
      cases same
      simpa using strip?_eq_some_iff.1 stripped
  | cons c characters ih =>
      rw [cutLastText?] at cut
      cases later : cutLastText? text characters with
      | some parts =>
          rw [later] at cut
          cases cut
          simp [ih later]
      | none =>
          rw [later, Option.map_eq_some_iff] at cut
          rcases cut with ⟨rest, stripped, same⟩
          cases same
          simpa using strip?_eq_some_iff.1 stripped

end IntentRouting.Text
