import Mathlib.Data.List.Lookmap

/-!
# Updating the first match in a list

`List.lookmap` replaces the first element for which a partial function is
defined.  The lemmas here say where that element stands and which elements the
result has, and what a search by key finds.
-/

namespace Shell.FirstMatch

variable {α κ : Type*} {update : α → Option α}

theorem mem_of_mem_lookmap
    {elements : List α} {result : α}
    (member : result ∈ elements.lookmap update) :
    result ∈ elements ∨
      ∃ element ∈ elements, update element = some result := by
  induction elements with
  | nil => simp at member
  | cons element elements induction =>
      cases updated : update element with
      | none =>
          rw [List.lookmap_cons_none update elements updated] at member
          rcases List.mem_cons.mp member with rfl | later
          · exact Or.inl List.mem_cons_self
          · rcases induction later with old | ⟨source, isMember, equal⟩
            · exact Or.inl (List.mem_cons_of_mem _ old)
            · exact Or.inr ⟨source, List.mem_cons_of_mem _ isMember, equal⟩
      | some replacement =>
          rw [List.lookmap_cons_some update elements updated] at member
          rcases List.mem_cons.mp member with rfl | later
          · exact Or.inr ⟨element, List.mem_cons_self, updated⟩
          · exact Or.inl (List.mem_cons_of_mem _ later)

/-- An element stays or is the one that is replaced. -/
theorem mem_lookmap_of_mem
    {elements : List α} {element : α} (member : element ∈ elements) :
    element ∈ elements.lookmap update ∨
      ∃ replacement,
        update element = some replacement ∧
          replacement ∈ elements.lookmap update := by
  induction elements with
  | nil => simp at member
  | cons head elements induction =>
      cases updated : update head with
      | none =>
          rw [List.lookmap_cons_none update elements updated]
          rcases List.mem_cons.mp member with rfl | later
          · exact Or.inl List.mem_cons_self
          · rcases induction later with kept | ⟨replacement, hit, isMember⟩
            · exact Or.inl (List.mem_cons_of_mem _ kept)
            · exact Or.inr
                ⟨replacement, hit, List.mem_cons_of_mem _ isMember⟩
      | some replacement =>
          rw [List.lookmap_cons_some update elements updated]
          rcases List.mem_cons.mp member with rfl | later
          · exact Or.inr ⟨replacement, updated, List.mem_cons_self⟩
          · exact Or.inl (List.mem_cons_of_mem _ later)

/-- Where the update takes place. -/
theorem lookmap_split
    (update : α → Option α) {elements : List α} {element replacement : α}
    (member : element ∈ elements)
    (updated : update element = some replacement) :
    ∃ before first changed after,
      elements = before ++ first :: after ∧
        (∀ earlier ∈ before, update earlier = none) ∧
        update first = some changed ∧
        elements.lookmap update = before ++ changed :: after := by
  induction elements with
  | nil => simp at member
  | cons head elements induction =>
      cases headUpdated : update head with
      | some changed =>
          exact ⟨[], head, changed, elements, rfl, by simp, headUpdated,
            List.lookmap_cons_some update elements headUpdated⟩
      | none =>
          rcases List.mem_cons.mp member with rfl | later
          · rw [headUpdated] at updated
            cases updated
          · obtain ⟨before, first, changed, after, rfl, skipped, hit,
              result⟩ := induction later
            refine ⟨head :: before, first, changed, after, rfl, ?_, hit, ?_⟩
            · intro earlier isMember
              rcases List.mem_cons.mp isMember with rfl | inner
              · exact headUpdated
              · exact skipped earlier inner
            · rw [List.lookmap_cons_none update _ headUpdated, result]
              rfl

/-- The update of an element behind others that are skipped. -/
theorem lookmap_append_cons
    {front back : List α} {element changed : α}
    (skipped : ∀ earlier ∈ front, update earlier = none)
    (updated : update element = some changed) :
    (front ++ element :: back).lookmap update =
      front ++ changed :: back := by
  induction front with
  | nil => exact List.lookmap_cons_some update back updated
  | cons head front induction =>
      rcases List.forall_mem_cons.mp skipped with ⟨first, later⟩
      rw [List.cons_append, List.lookmap_cons_none update _ first,
        induction later]
      rfl

/-- A view of the elements that goes along with the update. -/
theorem map_lookmap
    {β : Type*} {view : α → β} {updateView : β → Option β}
    (agree : ∀ element, updateView (view element) = (update element).map view)
    (elements : List α) :
    (elements.lookmap update).map view =
      (elements.map view).lookmap updateView := by
  induction elements with
  | nil => rfl
  | cons element elements induction =>
      have agreed := agree element
      cases updated : update element with
      | none =>
          rw [updated, Option.map_none] at agreed
          rw [List.lookmap_cons_none update elements updated, List.map_cons,
            List.map_cons, List.lookmap_cons_none updateView _ agreed,
            induction]
      | some replacement =>
          rw [updated, Option.map_some] at agreed
          rw [List.lookmap_cons_some update elements updated, List.map_cons,
            List.map_cons, List.lookmap_cons_some updateView _ agreed]

/-- Updates commute if neither decides which element the other one hits. -/
theorem lookmap_comm
    {first second : α → Prop} [DecidablePred first] [DecidablePred second]
    {changeFirst changeSecond : α → α}
    (keepsFirst : ∀ element, first (changeSecond element) ↔ first element)
    (keepsSecond : ∀ element, second (changeFirst element) ↔ second element)
    (commute :
      ∀ element, first element → second element →
        changeFirst (changeSecond element) =
          changeSecond (changeFirst element))
    (elements : List α) :
    let updateFirst := fun element =>
      if first element then some (changeFirst element) else none
    let updateSecond := fun element =>
      if second element then some (changeSecond element) else none
    (elements.lookmap updateSecond).lookmap updateFirst =
      (elements.lookmap updateFirst).lookmap updateSecond := by
  induction elements with
  | nil => rfl
  | cons element elements induction =>
      by_cases hitsFirst : first element <;>
        by_cases hitsSecond : second element <;>
        simp_all

variable [DecidableEq κ] {key : α → κ}

/-- An element is what a search for its key finds, if keys are distinct. -/
theorem find?_key_of_mem
    {elements : List α} (distinct : (elements.map key).Nodup)
    {element : α} (member : element ∈ elements) :
    elements.find? (fun other => key other = key element) =
      some element := by
  induction elements with
  | nil => simp at member
  | cons head elements induction =>
      rw [List.map_cons, List.nodup_cons] at distinct
      rcases List.mem_cons.mp member with rfl | later
      · simp
      · have different : key head ≠ key element := by
          intro equal
          apply distinct.1
          rw [equal]
          exact List.mem_map_of_mem later
        simpa [different] using induction distinct.2 later

/-- A search by key finds the first match for its key, changed if it is the
one that an update by key changes. -/
theorem find?_lookmap_key
    {change : α → α} (keeps : ∀ element, key (change element) = key element)
    (target query : κ) (elements : List α) :
    (elements.lookmap fun element =>
        if key element = target then some (change element) else none).find?
          (fun element => key element = query) =
      if query = target then
        (elements.find? fun element => key element = query).map change
      else
        elements.find? fun element => key element = query := by
  induction elements with
  | nil => simp
  | cons head elements induction =>
      let update := fun element =>
        if key element = target then some (change element) else none
      by_cases isTarget : key head = target
      · rw [List.lookmap_cons_some update elements (if_pos isTarget)]
        by_cases isQuery : query = target
        · simp [keeps, isTarget, isQuery]
        · simp [keeps, isTarget, isQuery, Ne.symm isQuery]
      · rw [List.lookmap_cons_none update elements (if_neg isTarget)]
        by_cases isQuery : key head = query
        · have different : query ≠ target := isQuery ▸ isTarget
          simp [isQuery, different]
        · simpa [isQuery] using induction

end Shell.FirstMatch
