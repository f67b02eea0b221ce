import SimIms.Lib.Machine

/-!
# What holds until something ends it

`Persists` is the weak "until" of a run: from any state on the way in which `Stays` holds,
it still holds after any further steps none of which `Ends` it, and those steps emit good
events only. A family of such properties holds along a run exactly when no step of the run
is a cut, provided that the other steps keep every member of the family and a cut violates
one of them.
-/

namespace Lib.Machine

variable {σ α ε ι : Type*} (m : Machine σ α ε)

def Persists (Stays : σ → Prop) (Ends : σ → α → Prop) (Good : ε → Prop) (start : σ)
    (as : List α) : Prop :=
  ∀ before during after s t first rest, as = before ++ (during ++ after) →
    m.exec start before = some (s, first) → Stays s → m.exec s during = some (t, rest) →
    m.Along (fun s a _ _ => ¬ Ends s a) s during → Stays t ∧ ∀ e ∈ rest, Good e

variable {m} {I : σ → Prop} {Stays : ι → σ → Prop} {Ends : ι → σ → α → Prop}
variable {Good : ι → ε → Prop} {Cuts : σ → α → Prop} {start : σ} {as : List α}

/-- The direction for a single member: steps that neither end it nor cut keep it. -/
theorem persists_of_along_not_cuts {i : ι}
    (invariant : ∀ s a t out, I s → m.step s a = some (t, out) → I t)
    (keep : ∀ s a t out, I s → m.step s a = some (t, out) → Stays i s → ¬ Ends i s a →
      ¬ Cuts s a → Stays i t ∧ ∀ e ∈ out, Good i e)
    (hstart : I start) (along : m.Along (fun s a _ _ => ¬ Cuts s a) start as) :
    m.Persists (Stays i) (Ends i) (Good i) start as := by
  intro before during after s t first rest heq hrun hstays hduring hends
  rw [heq, along_append hrun, along_append hduring] at along
  have hI : I s := exec_invariant invariant hstart hrun
  have hkept : (I t ∧ Stays i t) ∧ ∀ e ∈ [] ++ rest, Good i e := by
    apply exec_preserves_log (I := fun s log => (I s ∧ Stays i s) ∧ ∀ e ∈ log, Good i e)
      ?_ ⟨⟨hI, hstays⟩, by simp⟩ (hends.and along.2.1) hduring
    intro s a t out log h hstep hP
    obtain ⟨⟨hI, hstays⟩, hlog⟩ := h
    obtain ⟨hstays', hout⟩ := keep s a t out hI hstep hstays hP.1 hP.2
    refine ⟨⟨invariant s a t out hI hstep, hstays'⟩, ?_⟩
    intro e he
    obtain he | he := List.mem_append.mp he
    · exact hlog e he
    · exact hout e he
  exact ⟨hkept.1.2, hkept.2⟩

theorem forall_persists_iff
    (invariant : ∀ s a t out, I s → m.step s a = some (t, out) → I t)
    (keep : ∀ i s a t out, I s → m.step s a = some (t, out) → Stays i s → ¬ Ends i s a →
      ¬ Cuts s a → Stays i t ∧ ∀ e ∈ out, Good i e)
    (cut : ∀ s a t out, I s → m.step s a = some (t, out) → Cuts s a →
      ∃ i, Stays i s ∧ ¬ Ends i s a ∧ ¬ (Stays i t ∧ ∀ e ∈ out, Good i e))
    (hstart : I start) :
    (∀ i, m.Persists (Stays i) (Ends i) (Good i) start as) ↔
      m.Along (fun s a _ _ => ¬ Cuts s a) start as := by
  constructor
  · intro persists
    rw [along_iff]
    intro before a after s t first out heq hrun hstep hcut
    have hI : I s := exec_invariant invariant hstart hrun
    obtain ⟨i, hstays, hends, hviolated⟩ := cut s a t out hI hstep hcut
    apply hviolated
    have hone : m.exec s [a] = some (t, out ++ []) :=
      exec_cons_iff.mpr ⟨t, out, [], hstep, rfl, rfl⟩
    have hkept := persists i before [a] after s t first (out ++ []) heq hrun hstays hone
      ((along_cons hstep).mpr ⟨hends, trivial⟩)
    rwa [List.append_nil] at hkept
  · intro along i
    exact persists_of_along_not_cuts invariant (keep i) hstart along

/-- A property of all states reached, with the events on the way there. -/
theorem forall_reached_iff {J Holds : σ → List ε → Prop}
    (invariant : ∀ s a t out log, J s log → m.step s a = some (t, out) → J t (log ++ out))
    (kept_iff : ∀ s a t out log, J s log → Holds s log → m.step s a = some (t, out) →
      (Holds t (log ++ out) ↔ ¬ Cuts s a))
    (hstart : J start []) (hholds : Holds start []) :
    (∀ before after s log, as = before ++ after → m.exec start before = some (s, log) →
      Holds s log) ↔ m.Along (fun s a _ _ => ¬ Cuts s a) start as := by
  have invariant_run : ∀ {bs s log}, m.exec start bs = some (s, log) → J s log := by
    intro bs s log hrun
    exact exec_invariant_log invariant hstart hrun
  constructor
  · intro holds
    rw [along_iff]
    intro before a after s t log out heq hrun hstep
    have hnow : Holds s log := holds before (a :: after) s log heq hrun
    have hnext : Holds t (log ++ out) :=
      holds (before ++ [a]) after t (log ++ out) (by rw [heq, List.append_assoc]; rfl)
        (exec_snoc hrun hstep)
    exact (kept_iff s a t out log (invariant_run hrun) hnow hstep).mp hnext
  · intro along before after s log heq hrun
    rw [heq, along_append hrun] at along
    have hboth : J s ([] ++ log) ∧ Holds s ([] ++ log) := by
      apply exec_preserves_log (I := fun s log => J s log ∧ Holds s log) ?_ ⟨hstart, hholds⟩
        along.1 hrun
      intro s a t out log h hstep hcut
      exact ⟨invariant s a t out log h.1 hstep,
        (kept_iff s a t out log h.1 h.2 hstep).mpr hcut⟩
    exact hboth.2

end Lib.Machine
