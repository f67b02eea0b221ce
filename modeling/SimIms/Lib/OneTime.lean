import SimIms.Lib.Ledger
import SimIms.Lib.Threads

/-!
# Services that give out one-time tokens

Some events of a service issue a token and some take one, for the thread that causes them. The
service is `OneTime` in a state if no token has been taken twice, each by a thread that has
succeeded or by none, and if only a thread that succeeds makes a token go that has not expired.
-/

namespace Lib

/-- Which events issue a token and which take one, each with its key. -/
structure TokenEvents (ω κ τ : Type) where
  issues : ω → Option (κ × τ)
  takes : ω → Option (κ × τ)

namespace TokenEvents

variable {ω κ τ : Type} (tokens : TokenEvents ω κ τ) {log out : List (Nat × ω)}

def issued (log : List (Nat × ω)) : List (κ × τ) := log.filterMap fun event => tokens.issues event.2

/-- What has been taken, with the threads that have taken it. -/
def takings (log : List (Nat × ω)) : List (Nat × κ × τ) :=
  log.filterMap fun event => (tokens.takes event.2).map (event.1, ·)

def taken (log : List (Nat × ω)) : List (κ × τ) := (tokens.takings log).map Prod.snd

def takenBy (log : List (Nat × ω)) (id : Nat) : List (κ × τ) :=
  (eventsOf log id).filterMap tokens.takes

theorem issued_append (log out : List (Nat × ω)) :
    tokens.issued (log ++ out) = tokens.issued log ++ tokens.issued out := List.filterMap_append

theorem taken_append (log out : List (Nat × ω)) :
    tokens.taken (log ++ out) = tokens.taken log ++ tokens.taken out := by
  rw [taken, takings, List.filterMap_append, List.map_append]
  rfl

theorem mem_takings_iff {id : Nat} {entry : κ × τ} :
    (id, entry) ∈ tokens.takings log ↔ entry ∈ tokens.takenBy log id := by
  rw [takings, takenBy, List.mem_filterMap, List.mem_filterMap]
  constructor
  · rintro ⟨⟨other, event⟩, hmem, htakes⟩
    obtain ⟨taken, htaken, heq⟩ := Option.map_eq_some_iff.mp htakes
    cases heq
    exact ⟨event, mem_eventsOf.mpr hmem, htaken⟩
  · rintro ⟨event, hmem, htakes⟩
    refine ⟨(id, event), mem_eventsOf.mp hmem, ?_⟩
    rw [htakes]
    rfl

theorem mem_taken_iff {entry : κ × τ} :
    entry ∈ tokens.taken log ↔ ∃ id, entry ∈ tokens.takenBy log id := by
  rw [taken, List.mem_map]
  constructor
  · rintro ⟨⟨id, entry⟩, hmem, rfl⟩
    exact ⟨id, tokens.mem_takings_iff.mp hmem⟩
  · rintro ⟨id, hmem⟩
    exact ⟨(id, entry), tokens.mem_takings_iff.mpr hmem, rfl⟩

theorem takenBy_append_self {out : List ω} (log : List (Nat × ω)) (id : Nat) :
    tokens.takenBy (log ++ out.map (id, ·)) id =
      tokens.takenBy log id ++ out.filterMap tokens.takes := by
  rw [takenBy, eventsOf_append_self, List.filterMap_append]
  rfl

theorem takenBy_append_of_ne {out : List ω} (log : List (Nat × ω)) {id other : Nat}
    (h : other ≠ id) :
    tokens.takenBy (log ++ out.map (id, ·)) other = tokens.takenBy log other := by
  rw [takenBy, eventsOf_append_of_ne h]
  rfl

end TokenEvents

variable {σ : Type} {F : Interface} {ε γ α η ρ β ω κ τ ι : Type} [DecidableEq κ]

/-- What is said of a service that gives out tokens: of which answers `succeeds` says that the
thread has got one, and of which `accepts` says that it is the right one for a token. -/
structure OneTime (service : Service σ F ε γ α η ρ β ω) (tokens : TokenEvents ω κ τ)
    (table : σ → Table κ τ) (live : σ → τ → Prop) (succeeds : α → Prop)
    (accepts : γ → α → κ → τ → Prop) (s : Threads σ F ε γ α) (log : List (Nat × ω)) : Prop where
  once : (tokens.taken log).Nodup
  issued : ∀ entry ∈ tokens.taken log, entry ∈ tokens.issued log
  success : ∀ id thread answer, s.outcome id = some (thread, answer) → succeeds answer →
    ∃ key token, tokens.takenBy log id = [(key, token)] ∧ accepts thread answer key token
  failure : ∀ id thread answer, s.outcome id = some (thread, answer) → ¬ succeeds answer →
    tokens.takenBy log id = []
  keeps : ∀ id environment t out key token,
    (threadsMachine service).step s (.run id environment) = some (t, out) →
    (table s.shared).find key = some token → live s.shared token →
    (table t.shared).find key = some token ∨
      ∃ thread answer, t.outcome id = some (thread, answer) ∧ succeeds answer

/-- A token that has gone has been taken in between. -/
theorem Ledger.kept_or_taken {ident : τ → ι} {expires : τ → Nat} {tokens : TokenEvents ω κ τ}
    {log : List (Nat × ω)} {out : List ω} {id now : Nat} {before after : Table κ τ} {key : κ}
    {token : τ}
    (h : Ledger ident expires (tokens.issued log) (tokens.taken log) now before)
    (h' : Ledger ident expires (tokens.issued (log ++ out.map (id, ·)))
      (tokens.taken (log ++ out.map (id, ·))) now after)
    (hdistinct : AllDistinct ident (tokens.issued log)) (hfind : before.find key = some token)
    (hlive : now < expires token) :
    after.find key = some token ∨
      (key, token) ∈ tokens.takenBy (log ++ out.map (id, ·)) id := by
  have hunspent := (h.once hdistinct).2 key token hfind
  have hissued : (key, token) ∈ tokens.issued (log ++ out.map (id, ·)) := by
    rw [tokens.issued_append]
    exact List.mem_append_left _ (h.issued_of_find key token hfind)
  by_cases htaken : (key, token) ∈ tokens.taken (log ++ out.map (id, ·))
  · obtain ⟨other, hmem⟩ := tokens.mem_taken_iff.mp htaken
    by_cases heq : other = id
    · exact .inr (heq ▸ hmem)
    · rw [tokens.takenBy_append_of_ne log heq] at hmem
      exact (hunspent (tokens.mem_taken_iff.mpr ⟨other, hmem⟩)).elim
  · exact .inl (h'.kept key token hissued htaken hlive)

section

variable {service : Service σ F ε γ α η ρ β ω} {tokens : TokenEvents ω κ τ} {table : σ → Table κ τ}
variable {now : σ → Nat} {expires : τ → Nat} {ident : τ → ι} {succeeds : α → Prop}
variable {accepts : γ → α → κ → τ → Prop} {s : Threads σ F ε γ α} {log : List (Nat × ω)}

/-- A thread has taken no token, or has ended with success. -/
def TakesBySuccess (tokens : TokenEvents ω κ τ) (succeeds : α → Prop) (s : Threads σ F ε γ α)
    (log : List (Nat × ω)) : Prop :=
  ∀ id, tokens.takenBy log id ≠ [] → ∃ thread answer, s.outcome id = some (thread, answer) ∧
    succeeds answer

/-- A ledger in every state, and that tokens are taken by threads that succeed. The token that a
thread has got, and the one that it has taken, are told apart by their identity only. -/
theorem OneTime.of_ledger
    (hledger : Ledger ident expires (tokens.issued log) (tokens.taken log) (now s.shared)
      (table s.shared))
    (hdistinct : AllDistinct ident (tokens.issued log))
    (hsuccess : ∀ id thread answer, s.outcome id = some (thread, answer) → succeeds answer →
      ∃ key token found, tokens.takenBy log id = [(key, found)] ∧ ident found = ident token ∧
        (key, token) ∈ tokens.issued log ∧ accepts thread answer key token)
    (htakes : TakesBySuccess tokens succeeds s log)
    (hstep : ∀ id environment t out,
      (threadsMachine service).step s (.run id environment) = some (t, out) →
      Ledger ident expires (tokens.issued (log ++ out)) (tokens.taken (log ++ out)) (now s.shared)
        (table t.shared) ∧ TakesBySuccess tokens succeeds t (log ++ out)) :
    OneTime service tokens table (fun s token => now s < expires token) succeeds accepts s log where
  once := (hledger.once hdistinct).1
  issued := hledger.issued_of_taken
  success id thread answer houtcome hanswer := by
    obtain ⟨key, token, found, htaken, hsame, hissued, haccepts⟩ :=
      hsuccess id thread answer houtcome hanswer
    have hmem : (key, found) ∈ tokens.taken log := by
      rw [tokens.mem_taken_iff]
      exact ⟨id, htaken ▸ List.mem_singleton.mpr rfl⟩
    have heq : (key, found) = (key, token) :=
      hdistinct.eq_of_ident_eq (hledger.issued_of_taken _ hmem) hissued hsame
    cases heq
    exact ⟨key, token, htaken, haccepts⟩
  failure id thread answer houtcome hanswer := by
    by_contra hne
    obtain ⟨thread', answer', houtcome', hanswer'⟩ := htakes id hne
    rw [houtcome] at houtcome'
    cases houtcome'
    exact hanswer hanswer'
  keeps id environment t out key token hrun hfind hlive := by
    obtain ⟨hledger', htakes'⟩ := hstep id environment t out hrun
    obtain ⟨_, _, _, _, _, events, _, _, rfl, _⟩ := Threads.runThread_eq_some hrun
    obtain hkept | htaken := hledger.kept_or_taken hledger' hdistinct hfind hlive
    · exact .inl hkept
    · exact .inr (htakes' id (List.ne_nil_of_mem htaken))

end

end Lib
