import SimIms.Lib.Loop

/-!
# Items that arrive in segments

A reader appends each segment that arrives to its buffer, and then takes items off the front
until its step finds none. `TakesOff` says that a step finds an item exactly when all of it is
there. Then the items come out in their order however they are cut into segments, and nothing is
left in the buffer at the end.
-/

namespace Lib.Loop

variable {β ε φ : Type*}

/-- Take off what each segment completes. The result is all that was taken off, and what is left
in the buffer. Each of the loops may take this many iterations. -/
def receive (step : List β → Option (ε × List β)) (fuel : Nat) :
    List β → List (List β) → Option (List ε × List β)
  | buffer, [] => some ([], buffer)
  | buffer, segment :: segments =>
      match run step fuel (buffer ++ segment) with
      | none => none
      | some (taken, rest) =>
          match receive step fuel rest segments with
          | none => none
          | some (later, last) => some (taken ++ later, last)

/-- A step that takes an item off as soon as all of it is there, in buffers of this size. -/
structure TakesOff (step : List β → Option (ε × List β)) (encode : φ → List β) (value : φ → ε)
    (size : Nat) : Prop where
  nonempty : ∀ item, encode item ≠ []
  idle : step [] = none
  whole : ∀ item rest, (encode item ++ rest).length < size →
    step (encode item ++ rest) = some (value item, rest)
  waits : ∀ item front, front.IsPrefix (encode item) → front.length < (encode item).length →
    (encode item).length < size → step front = none

/-- The texts of all the items, one after the other. -/
def stream (encode : φ → List β) (items : List φ) : List β := (items.map encode).flatten

@[simp] theorem stream_nil (encode : φ → List β) : stream encode [] = [] := rfl

@[simp] theorem stream_cons (encode : φ → List β) (item : φ) (items : List φ) :
    stream encode (item :: items) = encode item ++ stream encode items := rfl

/-- The buffer does not hold the whole of the next item. -/
def Waiting (encode : φ → List β) (buffer : List β) (items : List φ) : Prop :=
  ∀ item ∈ items.head?, buffer.length < (encode item).length

variable {step : List β → Option (ε × List β)} {encode : φ → List β} {value : φ → ε} {size : Nat}

namespace TakesOff

variable (h : TakesOff step encode value size)

include h

/-- The loop takes off the items that the buffer holds, and leaves the beginning of the next. -/
theorem run_eq {items : List φ} {buffer future : List β}
    (hstream : buffer ++ future = stream encode items) (hsize : (stream encode items).length < size)
    {fuel : Nat} (hfuel : items.length < fuel) :
    ∃ taken left rest, items = taken ++ left ∧
      run step fuel buffer = some (taken.map value, rest) ∧ rest ++ future = stream encode left ∧
      Waiting encode rest left := by
  induction items generalizing buffer fuel with
  | nil =>
      obtain ⟨fuel, rfl⟩ := Nat.exists_eq_succ_of_ne_zero (Nat.ne_of_gt hfuel)
      obtain ⟨rfl, rfl⟩ := List.append_eq_nil_iff.mp hstream
      exact ⟨[], [], [], rfl, run_done h.idle fuel, rfl, by simp [Waiting]⟩
  | cons item items ih =>
      obtain ⟨fuel, rfl⟩ := Nat.exists_eq_succ_of_ne_zero (Nat.ne_of_gt (Nat.zero_lt_of_lt hfuel))
      rw [stream_cons] at hstream hsize
      rcases List.append_eq_append_iff.mp hstream with ⟨more, hitem, hmore⟩ | ⟨rest, rfl, hrest⟩
      · by_cases hall : more = []
        · -- The buffer is the item.
          subst hall
          rw [List.append_nil] at hitem
          rw [List.nil_append] at hmore
          have hempty : [] ++ future = stream encode items := hmore
          obtain ⟨taken, left, rest, rfl, hrun, hleft, hwaiting⟩ := ih hempty
            (Nat.lt_of_le_of_lt (by simp) hsize) (Nat.lt_of_succ_lt_succ hfuel)
          have hstep := h.whole item [] (Nat.lt_of_le_of_lt (by simp) hsize)
          rw [List.append_nil, hitem] at hstep
          exact ⟨item :: taken, left, rest, rfl, run_succ_of_some hstep hrun, hleft, hwaiting⟩
        · have hlength : buffer.length < (encode item).length := by
            rw [hitem, List.length_append]
            exact Nat.lt_add_of_pos_right (List.length_pos_of_ne_nil hall)
          have hstep := h.waits item buffer ⟨more, hitem.symm⟩ hlength
            (Nat.lt_of_le_of_lt (by simp) hsize)
          refine ⟨[], item :: items, buffer, rfl, run_done hstep fuel, hstream, ?_⟩
          intro next hnext
          cases hnext
          exact hlength
      · obtain ⟨taken, left, last, rfl, hrun, hleft, hwaiting⟩ := ih hrest.symm
          (Nat.lt_of_le_of_lt (by simp) hsize) (Nat.lt_of_succ_lt_succ hfuel)
        have hstep := h.whole item rest (by
          rw [hrest, ← List.append_assoc, List.length_append] at hsize
          exact Nat.lt_of_le_of_lt (Nat.le_add_right _ _) hsize)
        exact ⟨item :: taken, left, last, rfl, run_succ_of_some hstep hrun, hleft, hwaiting⟩

/-- However the stream is cut into segments, all its items are taken off, and nothing is left. -/
theorem receive_eq {items : List φ} {buffer : List β} {segments : List (List β)}
    (hstream : buffer ++ segments.flatten = stream encode items)
    (hsize : (stream encode items).length < size) (hwaiting : Waiting encode buffer items)
    {fuel : Nat} (hfuel : items.length < fuel) :
    receive step fuel buffer segments = some (items.map value, []) := by
  induction segments generalizing items buffer with
  | nil =>
      rw [List.flatten_nil, List.append_nil] at hstream
      cases items with
      | nil =>
          rw [hstream]
          rfl
      | cons item items =>
          -- The buffer would hold more than it waits for.
          have hlength := hwaiting item rfl
          rw [hstream, stream_cons, List.length_append] at hlength
          exact absurd hlength (Nat.not_lt.mpr (Nat.le_add_right _ _))
  | cons segment segments ih =>
      rw [List.flatten_cons, ← List.append_assoc] at hstream
      obtain ⟨taken, left, rest, rfl, hrun, hleft, hrest⟩ := h.run_eq hstream hsize hfuel
      have hsmaller : (stream encode left).length < size := by
        refine Nat.lt_of_le_of_lt ?_ hsize
        rw [stream, stream, List.map_append, List.flatten_append, List.length_append]
        exact Nat.le_add_left _ _
      have hlater := ih hleft hsmaller hrest
        (Nat.lt_of_le_of_lt (by rw [List.length_append]; exact Nat.le_add_left _ _) hfuel)
      simp only [receive, hrun, hlater, List.map_append]

end TakesOff
end Lib.Loop
