import LaunchTrace.Startup.Session
import Mathlib.Data.List.Nodup

/-! What the history of a session says of its steps: which have started, which are open, and which of them is the
innermost one. -/
namespace LaunchTrace.Mark

/-- The ids of the started steps, the last one first. -/
def startedIds : List Mark → List StepId
  | [] => []
  | .started id _ _ :: earlier => id :: startedIds earlier
  | .ended _ :: earlier => startedIds earlier

def endedIds : List Mark → List StepId
  | [] => []
  | .started _ _ _ :: earlier => endedIds earlier
  | .ended id :: earlier => id :: endedIds earlier

/-- The ids of the steps that have been started and not ended, the last one first. -/
def openIds (history : List Mark) : List StepId :=
  (startedIds history).filter (· ∉ endedIds history)

/-- The open step that was started last, or the root. -/
def innermost (history : List Mark) : StepId :=
  (openIds history).headD rootId

/-- The ids in the order in which their steps ended. Ending a step again adds nothing. -/
def ends : List Mark → List StepId
  | [] => []
  | .started _ _ _ :: earlier => ends earlier
  | .ended id :: earlier => if id ∈ endedIds earlier then ends earlier else ends earlier ++ [id]

/-- Ids count the starts, and every step is started under the innermost one. -/
def Numbered : List Mark → Prop
  | [] => True
  | .started id parentId _ :: earlier =>
    id.toNat = (startedIds earlier).length + 1 ∧ parentId = innermost earlier ∧ Numbered earlier
  | .ended _ :: earlier => Numbered earlier

variable {history later earlier : List Mark} {id other parentId : StepId} {name : StepName}

theorem started_of_mark (member : .started id parentId name ∈ history) : id ∈ startedIds history := by
  induction history with
  | nil => simp at member
  | cons mark earlier ih =>
    rcases List.mem_cons.mp member with rfl | inside
    · exact List.mem_cons_self
    · cases mark with
      | started _ _ _ => exact List.mem_cons_of_mem _ (ih inside)
      | ended _ => exact ih inside

theorem startedIds_append (later earlier : List Mark) :
    startedIds (later ++ earlier) = startedIds later ++ startedIds earlier := by
  induction later with
  | nil => rfl
  | cons mark later ih => cases mark <;> simp [startedIds, ih]

theorem endedIds_append (later earlier : List Mark) :
    endedIds (later ++ earlier) = endedIds later ++ endedIds earlier := by
  induction later with
  | nil => rfl
  | cons mark later ih => cases mark <;> simp [endedIds, ih]

theorem mem_ends : id ∈ ends history ↔ id ∈ endedIds history := by
  induction history with
  | nil => rfl
  | cons mark earlier ih =>
    cases mark with
    | started _ _ _ => exact ih
    | ended last =>
      simp only [ends, endedIds, List.mem_cons]
      split
      · rename_i again
        constructor
        · exact fun member => .inr (ih.mp member)
        · rintro (rfl | member)
          · exact ih.mpr again
          · exact ih.mpr member
      · rw [List.mem_append, List.mem_singleton, ih, or_comm]

theorem ends_nodup (history : List Mark) : (ends history).Nodup := by
  induction history with
  | nil => exact List.nodup_nil
  | cons mark earlier ih =>
    cases mark with
    | started _ _ _ => exact ih
    | ended last =>
      simp only [ends]
      split
      · exact ih
      · rename_i first
        refine List.nodup_append.mpr ⟨ih, List.nodup_singleton last, ?_⟩
        rintro id member _ again rfl
        rw [List.mem_singleton.mp again] at member
        exact first (mem_ends.mp member)

theorem numbered_split (numbered : Numbered (later ++ .started id parentId name :: earlier)) :
    id.toNat = (startedIds earlier).length + 1 ∧ parentId = innermost earlier ∧ Numbered earlier := by
  induction later with
  | nil => exact numbered
  | cons mark later ih =>
    cases mark with
    | started _ _ _ => exact ih numbered.2.2
    | ended _ => exact ih numbered

theorem numbered_bound (numbered : Numbered history) (member : id ∈ startedIds history) :
    0 < id.toNat ∧ id.toNat ≤ (startedIds history).length := by
  induction history with
  | nil => simp [startedIds] at member
  | cons mark earlier ih =>
    cases mark with
    | started first parentId name =>
      obtain ⟨count, _, numbered⟩ := numbered
      simp only [startedIds, List.length_cons]
      rcases List.mem_cons.mp member with rfl | member
      · omega
      · have bound := ih numbered member
        omega
    | ended _ => exact ih numbered member

theorem startedIds_descending (numbered : Numbered history) : (startedIds history).Pairwise (· > ·) := by
  induction history with
  | nil => exact List.Pairwise.nil
  | cons mark earlier ih =>
    cases mark with
    | started first parentId name =>
      obtain ⟨count, _, numbered⟩ := numbered
      refine List.pairwise_cons.mpr ⟨?_, ih numbered⟩
      intro id member
      have bound := numbered_bound numbered member
      show id < first
      rw [UInt64.lt_iff_toNat_lt]
      omega
    | ended _ => exact ih numbered

/-- Read forwards, the ids of the started steps are 1, 2, 3 and so on. -/
theorem startedIds_numbers (numbered : Numbered history) :
    (startedIds history).reverse.map UInt64.toNat = List.range' 1 (startedIds history).length := by
  induction history with
  | nil => rfl
  | cons mark earlier ih =>
    cases mark with
    | started first parentId name =>
      obtain ⟨count, _, numbered⟩ := numbered
      simp only [startedIds, List.reverse_cons, List.map_append, List.map_cons, List.map_nil, ih numbered,
        List.length_cons, List.range'_concat, count]
      rw [Nat.one_mul, Nat.add_comm 1]
    | ended _ => exact ih numbered

theorem startedIds_nodup (numbered : Numbered history) : (startedIds history).Nodup :=
  (startedIds_descending numbered).imp fun greater => (UInt64.ne_of_lt greater).symm

theorem mem_openIds : id ∈ openIds history ↔ id ∈ startedIds history ∧ id ∉ endedIds history := by
  simp [openIds]

theorem ends_perm (numbered : Numbered history) (ended : ∀ id ∈ endedIds history, id ∈ startedIds history)
    (closed : openIds history = []) : (ends history).Perm (startedIds history) := by
  refine (List.perm_ext_iff_of_nodup (ends_nodup history) (startedIds_nodup numbered)).mpr ?_
  intro id
  rw [mem_ends]
  constructor
  · exact ended id
  · intro started
    by_contra running
    have member := mem_openIds.mpr ⟨started, running⟩
    simp [closed] at member

theorem openIds_descending (numbered : Numbered history) : (openIds history).Pairwise (· > ·) :=
  (startedIds_descending numbered).filter _

theorem openIds_positive (numbered : Numbered history) (member : id ∈ openIds history) : rootId < id := by
  rw [UInt64.lt_iff_toNat_lt]
  exact (numbered_bound numbered (mem_openIds.mp member).1).1

theorem le_innermost (numbered : Numbered history) (member : id ∈ openIds history) : id ≤ innermost history := by
  have descending := openIds_descending numbered
  unfold innermost
  cases ids : openIds history with
  | nil => simp [ids] at member
  | cons first rest =>
    rw [ids] at member descending
    rcases List.mem_cons.mp member with rfl | member
    · exact UInt64.le_refl _
    · exact UInt64.le_of_lt ((List.pairwise_cons.mp descending).1 id member)

theorem innermost_cases (history : List Mark) :
    innermost history ∈ openIds history ∨ (openIds history = [] ∧ innermost history = rootId) := by
  unfold innermost
  cases ids : openIds history with
  | nil => exact .inr ⟨rfl, rfl⟩
  | cons first rest => exact .inl List.mem_cons_self

theorem innermost_bound (numbered : Numbered history) :
    (innermost history).toNat ≤ (startedIds history).length := by
  rcases innermost_cases history with member | ⟨_, root⟩
  · exact (numbered_bound numbered (mem_openIds.mp member).1).2
  · rw [root]
    exact Nat.zero_le _

theorem parent_lt (numbered : Numbered (later ++ .started id parentId name :: earlier)) : parentId < id := by
  obtain ⟨count, rfl, before⟩ := numbered_split numbered
  have bound := innermost_bound before
  rw [UInt64.lt_iff_toNat_lt]
  omega

theorem above_of_later (numbered : Numbered (later ++ .started id parentId name :: earlier))
    (member : other ∈ startedIds later) : id < other := by
  have descending := startedIds_descending numbered
  rw [startedIds_append] at descending
  exact (List.pairwise_append.mp descending).2.2 other member id List.mem_cons_self

/-- What has a lower id than a step has been started before it. -/
theorem earlier_of_lt (numbered : Numbered (later ++ .started id parentId name :: earlier))
    (member : other ∈ startedIds (later ++ .started id parentId name :: earlier)) (lower : other < id) :
    other ∈ startedIds earlier := by
  rw [startedIds_append] at member
  rcases List.mem_append.mp member with member | member
  · exact absurd (UInt64.lt_trans lower (above_of_later numbered member)) (UInt64.lt_irrefl _)
  · rcases List.mem_cons.mp member with rfl | member
    · exact absurd lower (UInt64.lt_irrefl _)
    · exact member

theorem mark_of_lt {upper : StepId} {label : StepName}
    (numbered : Numbered (later ++ .started id parentId name :: earlier))
    (member : .started other upper label ∈ later ++ .started id parentId name :: earlier) (lower : other < id) :
    .started other upper label ∈ earlier := by
  rcases List.mem_append.mp member with member | member
  · exact absurd (UInt64.lt_trans lower (above_of_later numbered (started_of_mark member))) (UInt64.lt_irrefl _)
  · rcases List.mem_cons.mp member with same | member
    · obtain ⟨rfl, _, _⟩ := Mark.started.inj same
      exact absurd lower (UInt64.lt_irrefl _)
    · exact member

/-- The innermost step after a start, if it is not one of those started since, was open at the start already. -/
theorem innermost_le (numbered : Numbered (later ++ .started id parentId name :: earlier))
    (lower : innermost (later ++ .started id parentId name :: earlier) < id) :
    innermost (later ++ .started id parentId name :: earlier) ≤ innermost earlier := by
  obtain ⟨_, _, before⟩ := numbered_split numbered
  rcases innermost_cases (later ++ .started id parentId name :: earlier) with member | ⟨_, root⟩
  · obtain ⟨started, running⟩ := mem_openIds.mp member
    apply le_innermost before
    refine mem_openIds.mpr ⟨earlier_of_lt numbered started lower, ?_⟩
    intro ended
    rw [endedIds_append] at running
    exact running (List.mem_append_right _ ended)
  · rw [root, UInt64.le_iff_toNat_le]
    exact Nat.zero_le _

theorem openIds_started (fresh : id ∉ endedIds history) :
    openIds (.started id parentId name :: history) = id :: openIds history := by
  simp only [openIds, startedIds, endedIds]
  exact List.filter_cons_of_pos (decide_eq_true fresh)

theorem openIds_ended : openIds (.ended id :: history) = (openIds history).filter (· ≠ id) := by
  simp only [openIds, startedIds, endedIds, List.filter_filter]
  apply List.filter_congr
  intro other _
  simp [List.mem_cons, not_or]

end LaunchTrace.Mark
