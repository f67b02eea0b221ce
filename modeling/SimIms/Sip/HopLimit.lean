import SimIms.Sip.ProxyCore

/-!
# The limit on the number of hops

Every hop that forwards a request is to count its Max-Forwards down, so that a request goes no
further than that many hops, wherever it goes. `prepareRequestForForward` and
`buildForwardedCancel` count each on their own.
-/

namespace SimIms.Sip

open Cxx Lib

/-! ## What is read from a message that has been written -/

namespace SipMessage

variable (msg : SipMessage)

def maxForwardsField : Option Bytes := (msg.headers.find? isMaxForwards).bind Header.value

/-- How many hops a request may still make: 70 where it does not say. -/
def allowance : Except Exception Int :=
  match msg.maxForwardsField with
  | none => .ok 70
  | some value => stoi value

theorem maxForwardsField_setMaxForwards (value : Int) :
    (msg.setMaxForwards value).maxForwardsField = some (decimalInt value) := by
  rw [maxForwardsField, setMaxForwards]
  split
  · rename_i hnone
    have hmissing : msg.headers.find? isMaxForwards = none := by
      rw [List.find?_eq_none]
      exact fun header hmem => by simpa using List.findIdx?_eq_none_iff.mp hnone header hmem
    rw [addHeader, List.find?_append, hmissing, Option.none_or, List.find?_cons_of_pos (by rfl)]
    rfl
  · rename_i i hsome
    obtain ⟨hlt, hit, hmiss⟩ := List.findIdx?_eq_some_iff_getElem.mp hsome
    have hbefore : (msg.headers.take i).find? isMaxForwards = none := by
      rw [List.find?_eq_none]
      intro header hmem
      obtain ⟨j, hj, rfl⟩ := List.mem_iff_getElem.mp hmem
      rw [List.length_take] at hj
      rw [List.getElem_take]
      simpa using hmiss j (by omega)
    have hwritten : isMaxForwards { msg.headers[i] with value := some (decimalInt value) } = true :=
      hit
    rw [List.modify_eq_take_cons_drop hlt, List.find?_append, hbefore, Option.none_or,
      List.find?_cons_of_pos hwritten]
    rfl

theorem maxForwards_eq : msg.maxForwards =
    match msg.maxForwardsField with
    | none => .ok (-1)
    | some value => stoi value := rfl

/-- Where the field says how many, `maxForwards` reads the same. -/
theorem allowance_eq : msg.allowance = msg.maxForwards ∨
    msg.allowance = .ok 70 ∧ msg.maxForwards = .ok (-1) := by
  rw [allowance, maxForwards_eq]
  cases msg.maxForwardsField with
  | none => exact .inr ⟨rfl, rfl⟩
  | some value => exact .inl rfl

theorem maxForwards_setMaxForwards {value : Int} (hlow : -2 ^ 31 ≤ value) (hhigh : value < 2 ^ 31) :
    (msg.setMaxForwards value).maxForwards = .ok value := by
  rw [maxForwards_eq, maxForwardsField_setMaxForwards]
  exact stoi_decimalInt hlow hhigh

variable {msg}

theorem maxForwards_congr {other : SipMessage}
    (h : msg.maxForwardsField = other.maxForwardsField) : msg.maxForwards = other.maxForwards := by
  rw [maxForwards_eq, maxForwards_eq, h]

theorem allowance_congr {other : SipMessage}
    (h : msg.maxForwardsField = other.maxForwardsField) : msg.allowance = other.allowance := by
  rw [allowance, allowance, h]

theorem maxForwards_lt {value : Int} (h : msg.maxForwards = .ok value) : value < 2 ^ 31 := by
  rw [maxForwards_eq] at h
  split at h
  · cases h
    decide
  · exact stoi_lt h

/-- Counting down a positive number. -/
theorem maxForwards_of_decrementMaxForwards {decremented : SipMessage} {value : Int}
    (hvalue : msg.maxForwards = .ok value) (hpos : 0 < value)
    (h : msg.decrementMaxForwards = .ok decremented) :
    decremented.maxForwards = .ok (value - 1) := by
  obtain ⟨mf, hmf, h⟩ := exists_of_bind_eq_ok h
  rw [hvalue] at hmf
  cases hmf
  cases h
  rw [if_pos hpos]
  have hhigh := maxForwards_lt hvalue
  exact maxForwards_setMaxForwards msg (by omega) (by omega)

theorem exists_decrementMaxForwards {value : Int} (hvalue : msg.maxForwards = .ok value) :
    ∃ decremented, msg.decrementMaxForwards = .ok decremented := by
  rw [decrementMaxForwards, hvalue]
  exact ⟨_, rfl⟩

/-- At zero and below nothing is counted down. -/
theorem decrementMaxForwards_of_nonpos {value : Int} (hvalue : msg.maxForwards = .ok value)
    (hle : value ≤ 0) : msg.decrementMaxForwards = .ok msg := by
  rw [decrementMaxForwards, hvalue]
  exact congrArg Except.ok (if_neg (Int.not_lt.mpr hle))

end SipMessage

/-! ## The two routines -/

namespace ProxyCore

variable {proxy : ProxyCore} {msg prepared cancel : SipMessage} {transport branch : Bytes}
variable {context : CancelForwardContext} {mf : Int}

/-- What a request is given that has no number, or a negative one. -/
theorem maxForwards_initial (hmf : msg.maxForwards = .ok mf) :
    (if mf < 0 then msg.setMaxForwards 70 else msg).maxForwards =
      .ok (if mf < 0 then 70 else mf) := by
  split
  · exact SipMessage.maxForwards_setMaxForwards msg (by decide) (by decide)
  · exact hmf

theorem maxForwards_of_prepareRequestForForward
    (h : proxy.prepareRequestForForward msg transport branch = .ok (.ok prepared)) :
    ∃ mf, msg.maxForwards = .ok mf ∧ mf ≠ 0 ∧
      prepared.maxForwards = .ok ((if mf < 0 then 70 else mf) - 1) := by
  obtain ⟨mf, hmf, h⟩ := exists_of_bind_eq_ok h
  split at h
  · cases h
  · rename_i hne
    obtain ⟨decremented, hdecrement, h⟩ := exists_of_bind_eq_ok h
    cases h
    have hpos : 0 < if mf < 0 then 70 else mf := by
      split
      · decide
      · omega
    have hleft : decremented.maxForwards = .ok ((if mf < 0 then 70 else mf) - 1) :=
      SipMessage.maxForwards_of_decrementMaxForwards (maxForwards_initial hmf) hpos hdecrement
    exact ⟨mf, hmf, hne, hleft⟩

theorem exists_prepareRequestForForward (proxy : ProxyCore) (transport branch : Bytes)
    (hmf : msg.maxForwards = .ok mf) (hne : mf ≠ 0) :
    ∃ prepared, proxy.prepareRequestForForward msg transport branch = .ok (.ok prepared) := by
  obtain ⟨decremented, hdecrement⟩ :=
    SipMessage.exists_decrementMaxForwards (maxForwards_initial hmf)
  refine ⟨decremented.addVia (proxy.via transport branch), ?_⟩
  rw [prepareRequestForForward, hmf]
  change (if mf = 0 then _ else _) = _
  rw [if_neg hne]
  exact congrArg (· >>= _) hdecrement

variable [OsipParser]

theorem maxForwardsField_processRouteHeaders :
    (proxy.processRouteHeaders msg).maxForwardsField = msg.maxForwardsField := by
  rw [processRouteHeaders]
  split
  · rfl
  · split
    · rfl
    · rfl

omit [OsipParser] in
/-- What a CANCEL is left with: at zero nothing is counted. -/
theorem exists_counted (hmf : msg.maxForwards = .ok mf) :
    ∃ counted, (if mf < 0 then pure (msg.setMaxForwards 70) else msg.decrementMaxForwards) =
        Except.ok counted ∧
      counted.maxForwards = .ok (if mf < 0 then 70 else max (mf - 1) 0) := by
  by_cases hneg : mf < 0
  · rw [if_pos hneg, if_pos hneg]
    exact ⟨_, rfl, SipMessage.maxForwards_setMaxForwards msg (by decide) (by decide)⟩
  · rw [if_neg hneg, if_neg hneg]
    obtain hpos | hle := Int.lt_or_le 0 mf
    · obtain ⟨counted, hcounted⟩ := SipMessage.exists_decrementMaxForwards hmf
      refine ⟨counted, hcounted, ?_⟩
      rw [SipMessage.maxForwards_of_decrementMaxForwards hmf hpos hcounted,
        max_eq_left (by omega)]
    · have hzero : mf = 0 := by omega
      refine ⟨msg, SipMessage.decrementMaxForwards_of_nonpos hmf hle, ?_⟩
      rw [hmf, hzero]
      rfl

/-- A CANCEL loses its `Via`s, is counted if that is asked for, and gets its own `Via`. -/
theorem buildForwardedCancel_eq (proxy : ProxyCore) (msg : SipMessage)
    (context : CancelForwardContext) (branch : Bytes) :
    ∃ (bare : SipMessage) (via : Via), bare.maxForwardsField = msg.maxForwardsField ∧
      proxy.buildForwardedCancel msg context branch =
        (if context.decrementMaxForwards = true then
            bare.maxForwards >>= fun mf =>
              if mf < 0 then pure (bare.setMaxForwards 70) else bare.decrementMaxForwards
          else pure bare) >>= fun counted => Except.ok (counted.addVia via) := by
  unfold buildForwardedCancel
  extract_lets routed bare finish
  refine ⟨bare, hopVia context.transport context.localAddress context.localPort
    (if context.inviteBranch = [] then branch else context.inviteBranch), ?_, ?_⟩
  · change routed.maxForwardsField = _
    dsimp only [routed]
    split
    · exact maxForwardsField_processRouteHeaders
    · rfl
  · split
    · cases bare.maxForwards with
      | error e => rfl
      | ok mf =>
          change (if mf < 0 then _ else _) = (if mf < 0 then _ else _) >>= _
          split
          · rfl
          · rfl
    · rfl

/-- A CANCEL is forwarded whatever it is left with. -/
theorem maxForwards_of_buildForwardedCancel (proxy : ProxyCore) (branch : Bytes)
    (hcount : context.decrementMaxForwards = true) (hmf : msg.maxForwards = .ok mf) :
    ∃ cancel, proxy.buildForwardedCancel msg context branch = .ok cancel ∧
      cancel.maxForwards = .ok (if mf < 0 then 70 else max (mf - 1) 0) := by
  obtain ⟨bare, via, hbare, heq⟩ := buildForwardedCancel_eq proxy msg context branch
  obtain ⟨counted, hcounted, hleft⟩ :=
    exists_counted ((SipMessage.maxForwards_congr hbare).trans hmf)
  rw [if_pos hcount, SipMessage.maxForwards_congr hbare, hmf] at heq
  exact ⟨counted.addVia via, heq.trans (congrArg (· >>= _) hcounted), hleft⟩

/-- A CANCEL that is counted has a number that can be read. -/
theorem exists_maxForwards_of_buildForwardedCancel (hcount : context.decrementMaxForwards = true)
    (h : proxy.buildForwardedCancel msg context branch = .ok cancel) :
    ∃ mf, msg.maxForwards = .ok mf := by
  obtain ⟨bare, via, hbare, heq⟩ := buildForwardedCancel_eq proxy msg context branch
  rw [heq, if_pos hcount, SipMessage.maxForwards_congr hbare] at h
  obtain ⟨counted, hcounted, -⟩ := exists_of_bind_eq_ok h
  obtain ⟨mf, hmf, -⟩ := exists_of_bind_eq_ok hcounted
  exact ⟨mf, hmf⟩

/-- A CANCEL whose Max-Forwards is not to be counted keeps what it has. -/
theorem maxForwards_of_uncounted (proxy : ProxyCore) (msg : SipMessage) (branch : Bytes)
    (hcount : context.decrementMaxForwards = false) :
    ∃ cancel, proxy.buildForwardedCancel msg context branch = .ok cancel ∧
      cancel.maxForwards = msg.maxForwards := by
  obtain ⟨bare, via, hbare, heq⟩ := buildForwardedCancel_eq proxy msg context branch
  rw [hcount] at heq
  exact ⟨bare.addVia via, heq, SipMessage.maxForwards_congr hbare⟩

end ProxyCore

/-! ## One hop -/

/-- A routine that makes of a request the one that goes out. -/
inductive HopRoutine where
  | prepareRequestForForward (proxy : ProxyCore) (transport branch : Bytes)
  | buildForwardedCancel (proxy : ProxyCore) (context : CancelForwardContext) (branch : Bytes)

namespace HopRoutine

variable [OsipParser]

def route : HopRoutine → SipMessage → Except Exception (Result SipMessage)
  | .prepareRequestForForward proxy transport branch, msg =>
      proxy.prepareRequestForForward msg transport branch
  | .buildForwardedCancel proxy context branch, msg => do
      let cancel ← proxy.buildForwardedCancel msg context branch
      return .ok cancel

/-- What goes out may make fewer hops than what has come in, and at least none. -/
def Limits (hop : HopRoutine) (msg : SipMessage) : Prop :=
  ∀ prepared, hop.route msg = .ok (.ok prepared) →
    ∃ received left, msg.allowance = .ok received ∧ prepared.maxForwards = .ok left ∧
      0 ≤ left ∧ left < received

/-- When it is so. A CANCEL is never refused and its missing Max-Forwards not counted. -/
def Counts : HopRoutine → SipMessage → Prop
  | .prepareRequestForForward _ _ _, msg => ∀ received, msg.allowance = .ok received → 0 ≤ received
  | .buildForwardedCancel _ context _, msg =>
      context.decrementMaxForwards = true ∧ ∀ mf, msg.maxForwards = .ok mf → 0 < mf

variable {msg prepared : SipMessage} {hop : HopRoutine}

theorem limits_prepareRequestForForward_iff (proxy : ProxyCore) (transport branch : Bytes) :
    (prepareRequestForForward proxy transport branch).Limits msg ↔
      ∀ received, msg.allowance = .ok received → 0 ≤ received := by
  constructor
  · intro h received hreceived
    by_contra hneg
    obtain heq | ⟨heq, -⟩ := msg.allowance_eq
    · have hmf : msg.maxForwards = .ok received := heq.symm.trans hreceived
      obtain ⟨prepared, hprepared⟩ :=
        ProxyCore.exists_prepareRequestForForward proxy transport branch hmf (by omega)
      obtain ⟨_, left, hallowed, -, hnonneg, hlt⟩ := h prepared hprepared
      rw [hreceived] at hallowed
      cases hallowed
      omega
    · rw [hreceived] at heq
      cases heq
      exact hneg (by decide)
  · intro h prepared hprepared
    obtain ⟨mf, hmf, hne, hleft⟩ := ProxyCore.maxForwards_of_prepareRequestForForward hprepared
    obtain heq | ⟨heq, hmissing⟩ := msg.allowance_eq
    · have hallowed : msg.allowance = .ok mf := heq.trans hmf
      have hnonneg := h mf hallowed
      rw [if_neg (by omega)] at hleft
      exact ⟨mf, mf - 1, hallowed, hleft, by omega, by omega⟩
    · rw [hmf] at hmissing
      cases hmissing
      exact ⟨70, 69, heq, hleft, by decide, by decide⟩

theorem limits_buildForwardedCancel_iff (proxy : ProxyCore) (context : CancelForwardContext)
    (branch : Bytes) : (buildForwardedCancel proxy context branch).Limits msg ↔
      context.decrementMaxForwards = true ∧ ∀ mf, msg.maxForwards = .ok mf → 0 < mf := by
  constructor
  · intro h
    cases hcount : context.decrementMaxForwards with
    | false =>
        obtain ⟨cancel, hcancel, hkept⟩ :=
          ProxyCore.maxForwards_of_uncounted proxy msg branch hcount
        obtain ⟨received, left, hallowed, hleft, hnonneg, hlt⟩ :=
          h cancel (congrArg (· >>= _) hcancel)
        rw [hkept] at hleft
        obtain heq | ⟨-, hmissing⟩ := msg.allowance_eq
        · rw [hallowed, hleft] at heq
          cases heq
          exact (Int.lt_irrefl _ hlt).elim
        · rw [hleft] at hmissing
          cases hmissing
          exact (Int.not_lt.mpr hnonneg (by decide)).elim
    | true =>
        refine ⟨rfl, fun mf hmf => ?_⟩
        obtain ⟨cancel, hcancel, hmade⟩ :=
          ProxyCore.maxForwards_of_buildForwardedCancel proxy branch hcount hmf
        obtain ⟨received, left, hallowed, hleft, hnonneg, hlt⟩ :=
          h cancel (congrArg (· >>= _) hcancel)
        rw [hmade] at hleft
        cases hleft
        obtain heq | ⟨heq, hmissing⟩ := msg.allowance_eq
        · rw [hallowed, hmf] at heq
          cases heq
          split at hlt
          · omega
          · omega
        · rw [hmf] at hmissing
          cases hmissing
          rw [hallowed] at heq
          cases heq
          exact (Int.lt_irrefl _ hlt).elim
  · rintro ⟨hcount, hpositive⟩ prepared hroute
    obtain ⟨cancel, hcancel, heq⟩ := exists_of_bind_eq_ok hroute
    cases heq
    obtain ⟨mf, hmf⟩ := ProxyCore.exists_maxForwards_of_buildForwardedCancel hcount hcancel
    have hpos := hpositive mf hmf
    obtain ⟨made, hmade, hleft⟩ :=
      ProxyCore.maxForwards_of_buildForwardedCancel proxy branch hcount hmf
    rw [hcancel] at hmade
    cases hmade
    rw [if_neg (by omega), max_eq_left (by omega)] at hleft
    obtain heq | ⟨-, hmissing⟩ := msg.allowance_eq
    · exact ⟨mf, mf - 1, heq.trans hmf, hleft, by omega, by omega⟩
    · rw [hmf] at hmissing
      cases hmissing
      exact (Int.not_lt.mpr (Int.le_of_lt hpos) (by decide)).elim

/-- A hop limits exactly the requests that it counts. -/
theorem limits_iff (hop : HopRoutine) (msg : SipMessage) : hop.Limits msg ↔ hop.Counts msg := by
  cases hop with
  | prepareRequestForForward proxy transport branch =>
      exact limits_prepareRequestForForward_iff proxy transport branch
  | buildForwardedCancel proxy context branch =>
      exact limits_buildForwardedCancel_iff proxy context branch

end HopRoutine

/-! ## Paths -/

/-- A request goes from hop to hop, each of which is as stated with what it receives. What happens
to the request on the way does not concern its Max-Forwards. -/
inductive HopPath [OsipParser] (stated : HopRoutine → SipMessage → Prop) :
    SipMessage → List HopRoutine → Prop where
  | arrived (msg : SipMessage) : HopPath stated msg []
  | forwarded {msg prepared received : SipMessage} {hop : HopRoutine} {hops : List HopRoutine} :
      stated hop msg → hop.route msg = .ok (.ok prepared) →
      received.maxForwardsField = prepared.maxForwardsField → HopPath stated received hops →
      HopPath stated msg (hop :: hops)

section

variable [OsipParser] {stated : HopRoutine → SipMessage → Prop} {msg : SipMessage}
    {hops : List HopRoutine}

theorem HopPath.mono {stated' : HopRoutine → SipMessage → Prop} (h : HopPath stated msg hops)
    (imp : ∀ hop msg, stated hop msg → stated' hop msg) : HopPath stated' msg hops := by
  induction h with
  | arrived msg => exact .arrived msg
  | forwarded hstated hroute hsame _ ih => exact .forwarded (imp _ _ hstated) hroute hsame ih

/-- Hops that limit what they forward forward no more often than they are allowed to. -/
theorem HopPath.length_le (h : HopPath HopRoutine.Limits msg hops) {received : Int}
    (hallowed : msg.allowance = .ok received) : hops.length ≤ received.toNat := by
  induction h generalizing received with
  | arrived msg => exact Nat.zero_le _
  | @forwarded msg prepared next hop hops hlimits hroute hsame _ ih =>
      obtain ⟨before, left, hbefore, hleft, hnonneg, hlt⟩ := hlimits prepared hroute
      rw [hallowed] at hbefore
      cases hbefore
      have hnext : next.allowance = .ok left := by
        rw [SipMessage.allowance_congr hsame]
        obtain heq | ⟨-, hmissing⟩ := prepared.allowance_eq
        · exact heq.trans hleft
        · rw [hleft] at hmissing
          cases hmissing
          exact (Int.not_lt.mpr hnonneg (by decide)).elim
      have hrest := ih hnext
      rw [List.length_cons]
      omega

end

/-- Which requests the hops limit, and that requests which are limited all along go no further than
they are allowed to. -/
theorem hop_limit_iff [OsipParser] : (∀ hop msg, HopRoutine.Limits hop msg ↔ hop.Counts msg) ∧
    ∀ msg hops, HopPath HopRoutine.Counts msg hops → ∀ received, msg.allowance = .ok received →
      hops.length ≤ received.toNat :=
  ⟨HopRoutine.limits_iff, fun _ _ hpath _ hallowed =>
    (hpath.mono fun hop msg => (hop.limits_iff msg).mpr).length_le hallowed⟩

/-- A CANCEL with this Max-Forwards. -/
def countedCancel (maxForwards : Int) : SipMessage :=
  (dialogRequest "CANCEL" (bytes "alice") []).setMaxForwards maxForwards

def calleeContext : CancelForwardContext :=
  { inviteBranch := bytes "z9hG4bKinvite", localAddress := bytes "10.0.0.3", localPort := 5062 }

/-- The S-CSCF forwards a CANCEL for an INVITE that has gone to the callee. -/
def cancelHop : HopRoutine := .buildForwardedCancel ⟨bytes "10.0.0.3", 5062⟩ calleeContext []

theorem hop_limit_iff_last_hop :
    let _ : OsipParser := plainUris
    ∃ msg, msg = countedCancel 1 ∧ HopPath HopRoutine.Counts msg [cancelHop] ∧
      [cancelHop].length ≤ 1 := by
  let _ : OsipParser := plainUris
  have hmf : (countedCancel 1).maxForwards = .ok 1 :=
    SipMessage.maxForwards_setMaxForwards _ (by decide) (by decide)
  have hcounts : HopRoutine.Counts cancelHop (countedCancel 1) := by
    refine ⟨rfl, fun mf h => ?_⟩
    rw [hmf] at h
    cases h
    decide
  have hcounted : calleeContext.decrementMaxForwards = true := rfl
  obtain ⟨cancel, hcancel, -⟩ :=
    ProxyCore.maxForwards_of_buildForwardedCancel ⟨bytes "10.0.0.3", 5062⟩ [] hcounted hmf
  have hpath : HopPath HopRoutine.Counts (countedCancel 1) [cancelHop] :=
    .forwarded hcounts (congrArg (· >>= _) hcancel) rfl (.arrived cancel)
  exact ⟨_, rfl, hpath, hop_limit_iff.2 _ _ hpath 1 hmf⟩

/-- A CANCEL that may make no more hops is forwarded. -/
theorem cancel_not_limited : ¬ ∀ (hop : HopRoutine) (msg : SipMessage),
    (∃ received, msg.allowance = .ok received) → @HopRoutine.Limits plainUris hop msg := by
  intro h
  have hmf : (countedCancel 0).maxForwards = .ok 0 :=
    SipMessage.maxForwards_setMaxForwards _ (by decide) (by decide)
  have hlimits := h cancelHop (countedCancel 0) ⟨0, hmf⟩
  have hcounts := (@HopRoutine.limits_buildForwardedCancel_iff plainUris _ _ _ _).mp hlimits
  exact Int.lt_irrefl 0 (hcounts.2 0 hmf)

end SimIms.Sip
