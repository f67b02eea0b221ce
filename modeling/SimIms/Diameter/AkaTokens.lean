import SimIms.Diameter.MongoHssClient
import SimIms.Lib.Outcome

/-!
# The network's authentication token

The sequence number goes from the record through a hexadecimal text into six bytes, and is combined
there with what the Milenage functions make of the key material. These functions enter as
`MilenageFunctions`; what `milenage_adapter` does with them is an instance of `Milenage`.
-/

namespace SimIms.Diameter

open Cxx Lib Sip Db

/-! ## The adapter -/

/-- What `f2345` writes into its arguments. -/
structure F2345 where
  res : Bytes
  ck : Bytes
  ik : Bytes
  ak : Bytes
  length_ak : ak.length = 6

/-- The functions of the Milenage library, with their arguments in its order. -/
class MilenageFunctions where
  computeOPc : (op key : Bytes) → Bytes
  f1 : (opc key rand sqn amf : Bytes) → Bytes
  f2345 : (opc key rand : Bytes) → F2345
  length_f1 : ∀ opc key rand sqn amf, (f1 opc key rand sqn amf).length = 8

variable [MilenageFunctions]

/-- SQN ^ AK || AMF || MAC-A. -/
def autnOf (opc k sqn amf rand : Bytes) : Bytes :=
  sqn.zipWith (· ^^^ ·) (MilenageFunctions.f2345 opc k rand).ak ++ amf ++
    MilenageFunctions.f1 opc k rand sqn amf

theorem length_autnOf {opc k sqn amf rand : Bytes} (hsqn : sqn.length = 6) (hamf : amf.length = 2) :
    (autnOf opc k sqn amf rand).length = 16 := by
  rw [autnOf, List.length_append, List.length_append, List.length_zipWith, F2345.length_ak,
    MilenageFunctions.length_f1, hsqn, hamf]
  rfl

instance milenageAdapter : Milenage where
  computeOpc k op := .ok (MilenageFunctions.computeOPc op k)
  generateVector opc k sqn amf rand :=
    let out := MilenageFunctions.f2345 opc k rand
    .ok { autn := autnOf opc k sqn amf rand, xres := out.res, ck := out.ck, ik := out.ik }

/-! ## Hexadecimal texts -/

/-- The bytes that a text of exactly twice as many hexadecimal digits stands for. -/
def hexBytes (n : Nat) (text : Bytes) : Option Bytes :=
  if text.length = n * 2 then hexPairs text else none

/-- The lowest bytes of a number, the highest of them first. -/
def bigEndian : (width : Nat) → Nat → Bytes
  | 0, _ => []
  | width + 1, n => UInt8.ofNat (n / 256 ^ width) :: bigEndian width n

omit [MilenageFunctions] in
theorem parseHexExact_eq_ok_iff {n : Nat} {text out : Bytes} {fieldName : String} :
    parseHexExact n text fieldName = .ok out ↔ hexBytes n text = some out := by
  rw [parseHexExact, hexBytes]
  by_cases hlength : text.length = n * 2
  · rw [if_neg (not_not.mpr hlength), if_pos hlength]
    cases hexPairs text with
    | none => simp
    | some bytes => simp
  · rw [if_pos hlength, if_neg hlength]
    simp

omit [MilenageFunctions] in
/-- Digits are printed as they are read. -/
theorem hexPairs_digits {hi lo : Nat} (hhi : hi < 16) (hlo : lo < 16) (rest : Bytes) :
    hexPairs (hexDigit hi :: hexDigit lo :: rest) =
      (hexPairs rest).map (UInt8.ofNat (16 * hi + lo) :: ·) := by
  have hvalue : ∀ d < 16, hexValue (hexDigit d) = some (UInt8.ofNat d) := by decide
  have hjoin : ∀ hi < 16, ∀ lo < 16,
      UInt8.ofNat hi <<< 4 ||| UInt8.ofNat lo = UInt8.ofNat (16 * hi + lo) := by decide
  rw [hexPairs, hvalue hi hhi, hvalue lo hlo]
  cases hexPairs rest with
  | none => rfl
  | some bytes => rw [Option.map_some, ← hjoin hi hhi lo hlo]

omit [MilenageFunctions] in
theorem hexDigits_succ (width n : Nat) :
    hexDigits (width + 1) n = hexDigit (n / 16 ^ width % 16) :: hexDigits width n := by
  rw [hexDigits, List.range_succ, List.reverse_append]
  rfl

omit [MilenageFunctions] in
/-- The text of a number is read back as its bytes. -/
theorem hexPairs_hexDigits (width n : Nat) :
    hexPairs (hexDigits (2 * width) n) = some (bigEndian width n) := by
  induction width with
  | zero => rfl
  | succ width ih =>
      have hpower : 16 ^ (2 * width) = 256 ^ width := pow_mul 16 2 width
      rw [Nat.mul_succ, hexDigits_succ, hexDigits_succ,
        hexPairs_digits (Nat.mod_lt _ (by decide)) (Nat.mod_lt _ (by decide)), ih, Option.map_some,
        bigEndian, pow_succ, ← Nat.div_div_eq_div_mul, hpower]
      refine congrArg (fun byte => some (byte :: bigEndian width n)) ?_
      generalize n / 256 ^ width = m
      apply UInt8.toNat_inj.mp
      rw [UInt8.toNat_ofNat', UInt8.toNat_ofNat']
      omega

omit [MilenageFunctions] in
theorem length_bigEndian (width n : Nat) : (bigEndian width n).length = width := by
  induction width with
  | zero => rfl
  | succ width ih => rw [bigEndian, List.length_cons, ih]

omit [MilenageFunctions] in
theorem length_hexDigits (width n : Nat) : (hexDigits width n).length = width := by
  rw [hexDigits, List.length_map, List.length_reverse, List.length_range]

omit [MilenageFunctions] in
theorem length_hexPairs :
    ∀ {text out : Bytes}, hexPairs text = some out → out.length = text.length / 2
  | [], _, h | [_], _, h => by
      cases h
      simp
  | hi :: lo :: rest, _, h => by
      rw [hexPairs] at h
      split at h
      · rename_i hrest
        cases h
        rw [List.length_cons, length_hexPairs hrest, List.length_cons, List.length_cons]
        omega
      · cases h

omit [MilenageFunctions] in
theorem length_of_hexBytes {n : Nat} {text out : Bytes} (h : hexBytes n text = some out) :
    out.length = n := by
  rw [hexBytes] at h
  split at h
  · rename_i hlength
    rw [length_hexPairs h, hlength, Nat.mul_div_cancel n (by decide)]
  · cases h

/-! ## Key material -/

/-- The record's OPc, or the one that is derived from its OP. Without a type, OPc goes first. -/
def operatorCode (auth : SubscriberAuth) (k : Bytes) : Option Bytes :=
  if auth.operatorCodeType = bytes "opc" ∨
      auth.operatorCodeType ≠ bytes "op" ∧ auth.opc ≠ [] then hexBytes 16 auth.opc
  else (hexBytes 16 auth.op).map (MilenageFunctions.computeOPc · k)

/-- The key material of a record is well formed, and stands for these bytes. -/
structure KeyMaterial (auth : SubscriberAuth) (k opc amf : Bytes) : Prop where
  readsKi : hexBytes 16 auth.ki = some k
  readsOpc : operatorCode auth k = some opc
  readsAmf : hexBytes 2 (if auth.amf = [] then bytes "8000" else auth.amf) = some amf

variable {subscriber : SubscriberRecord} {sqn : UInt64} {k opc amf : Bytes}

/-- The configuration for a record with the number that has been taken for it. -/
def configWith (subscriber : SubscriberRecord) (sqn : UInt64) : HssSubscriberConfig :=
  toHssSubscriberConfig { subscriber with auth := { subscriber.auth with sqn } }

omit [MilenageFunctions] in
theorem hexBytes_nil {n : Nat} (hn : n ≠ 0) : hexBytes n [] = none := by
  rw [hexBytes, if_neg]
  rw [List.length_nil]
  omega

theorem resolveOpc_eq_ok_iff :
    resolveOpc (configWith subscriber sqn) k = .ok opc ↔
      operatorCode subscriber.auth k = some opc := by
  have htype : (configWith subscriber sqn).operatorCodeType = subscriber.auth.operatorCodeType :=
    rfl
  have hopc : (configWith subscriber sqn).opc = subscriber.auth.opc := rfl
  have hop : (configWith subscriber sqn).op = subscriber.auth.op := rfl
  have hnone : hexBytes 16 [] = none := hexBytes_nil (by decide)
  -- A text that is missing is not well formed either.
  have hgiven : ∀ error, (if subscriber.auth.opc = [] then .error error
      else parseHexExact 16 subscriber.auth.opc "opc") = Except.ok opc ↔
        hexBytes 16 subscriber.auth.opc = some opc := by
    intro error
    split
    · rename_i hempty
      rw [hempty, hnone]
      simp
    · exact parseHexExact_eq_ok_iff
  unfold resolveOpc
  extract_lets missing fromOp
  rw [htype, hopc, hop]
  have hfromOp : fromOp = .ok opc ↔
      (hexBytes 16 subscriber.auth.op).map (MilenageFunctions.computeOPc · k) = some opc := by
    rw [Option.map_eq_some_iff]
    simp only [← @parseHexExact_eq_ok_iff 16 _ _ "op", fromOp, hop]
    cases parseHexExact 16 subscriber.auth.op "op" with
    | error error => simp
    | ok op => simp [Milenage.computeOpc]
  have hderived : ∀ error, (if subscriber.auth.op = [] then .error error else fromOp) =
      Except.ok opc ↔
        (hexBytes 16 subscriber.auth.op).map (MilenageFunctions.computeOPc · k) = some opc := by
    intro error
    split
    · rename_i hempty
      rw [hempty, hnone]
      simp
    · exact hfromOp
  by_cases hisOpc : subscriber.auth.operatorCodeType = bytes "opc"
  · rw [if_pos hisOpc, operatorCode, if_pos (Or.inl hisOpc)]
    exact hgiven _
  · rw [if_neg hisOpc]
    by_cases hisOp : subscriber.auth.operatorCodeType = bytes "op"
    · have hcode : operatorCode subscriber.auth k =
          (hexBytes 16 subscriber.auth.op).map (MilenageFunctions.computeOPc · k) :=
        if_neg (not_or.mpr ⟨hisOpc, fun h => h.1 hisOp⟩)
      rw [if_pos hisOp, hcode]
      exact hderived _
    · rw [if_neg hisOp]
      by_cases hempty : subscriber.auth.opc = []
      · have hcode : operatorCode subscriber.auth k =
            (hexBytes 16 subscriber.auth.op).map (MilenageFunctions.computeOPc · k) :=
          if_neg (not_or.mpr ⟨hisOpc, fun h => h.2 hempty⟩)
        rw [if_neg (not_not.mpr hempty), hcode]
        exact hderived _
      · have hcode : operatorCode subscriber.auth k = hexBytes 16 subscriber.auth.opc :=
          if_pos (.inr ⟨hisOp, hempty⟩)
        rw [if_pos hempty, hcode]
        exact parseHexExact_eq_ok_iff

omit [MilenageFunctions] in
/-- The number of the record, cut to 48 bits, in six bytes. -/
theorem hexBytes_sqn (subscriber : SubscriberRecord) (sqn : UInt64) :
    hexBytes 6 (configWith subscriber sqn).sqn = some (bigEndian 6 (sqn.toNat % 2 ^ 48)) := by
  have hsqn : (configWith subscriber sqn).sqn = hexDigits (2 * 6) (sqn.toNat % 2 ^ 48) := by
    have hmask : (sqn &&& kSqnMask).toNat = sqn.toNat % 2 ^ 48 := by
      rw [UInt64.toNat_and]
      exact Nat.and_two_pow_sub_one_eq_mod sqn.toNat 48
    rw [← hmask]
    rfl
  rw [hsqn, hexBytes, length_hexDigits, if_pos rfl, hexPairs_hexDigits]

/-- Material is made exactly where the texts of the record are well formed. -/
theorem akaMaterial_eq_ok_iff {material : AkaMaterial} :
    akaMaterial (configWith subscriber sqn) = .ok material ↔
      ∃ k opc amf, KeyMaterial subscriber.auth k opc amf ∧
        material = ⟨opc, k, bigEndian 6 (sqn.toNat % 2 ^ 48), amf⟩ := by
  have hamf : (if (configWith subscriber sqn).amf = [] then bytes "8000"
      else (configWith subscriber sqn).amf) =
        if subscriber.auth.amf = [] then bytes "8000" else subscriber.auth.amf := by
    change (if (if subscriber.auth.amf = [] then bytes "8000" else subscriber.auth.amf) = [] then _
      else (if subscriber.auth.amf = [] then bytes "8000" else subscriber.auth.amf)) = _
    by_cases hempty : subscriber.auth.amf = []
    · rw [if_pos hempty]
      rfl
    · rw [if_neg hempty, if_neg hempty]
  rw [akaMaterial, hamf]
  constructor
  · intro h
    split at h
    · cases h
    · obtain ⟨k, hk, h⟩ := exists_of_bind_eq_ok h
      obtain ⟨opc, hopc, h⟩ := exists_of_bind_eq_ok h
      obtain ⟨number, hnumber, h⟩ := exists_of_bind_eq_ok h
      obtain ⟨amf, hparsed, h⟩ := exists_of_bind_eq_ok h
      cases h
      rw [parseHexExact_eq_ok_iff, hexBytes_sqn] at hnumber
      cases hnumber
      exact ⟨k, opc, amf, ⟨parseHexExact_eq_ok_iff.mp hk, resolveOpc_eq_ok_iff.mp hopc,
        parseHexExact_eq_ok_iff.mp hparsed⟩, rfl⟩
  · rintro ⟨k, opc, amf, h, rfl⟩
    have hk : parseHexExact 16 (configWith subscriber sqn).ki "ki" = .ok k :=
      parseHexExact_eq_ok_iff.mpr h.readsKi
    have hopc : resolveOpc (configWith subscriber sqn) k = .ok opc :=
      resolveOpc_eq_ok_iff.mpr h.readsOpc
    have hnumber : parseHexExact 6 (configWith subscriber sqn).sqn "sqn" =
        .ok (bigEndian 6 (sqn.toNat % 2 ^ 48)) :=
      parseHexExact_eq_ok_iff.mpr (hexBytes_sqn subscriber sqn)
    have hparsed : parseHexExact 2 (if subscriber.auth.amf = [] then bytes "8000"
        else subscriber.auth.amf) "amf" = .ok amf := parseHexExact_eq_ok_iff.mpr h.readsAmf
    have hgiven : ¬ ((configWith subscriber sqn).ki = [] ∨
        (configWith subscriber sqn).sqn = []) := by
      rintro (hempty | hempty)
      · rw [hempty] at hk
        cases hk
      · rw [hempty] at hnumber
        cases hnumber
    rw [if_neg hgiven]
    simp only [bind, Except.bind, hk, hopc, hnumber, hparsed]
    rfl

/-! ## Multimedia authentication -/

variable {σ : Type} {G : Interface} [OsipParser] [Includes repository G] [Includes environment G]

section

variable (world : σ → (op : G.Op) → σ × G.Answer op) (params : MarParams) (s : σ)

/-- The run of the lookup. -/
def lookedUp : Program.Ran G σ Exception (Result SubscriberRecord) :=
  (MongoHssClient.findSubscriber "Subscriber not found for MAR" params.impi params.impu).runIn world
    s

/-- The run of the update that takes a number for the record. -/
def advanced (subscriber : SubscriberRecord) : Program.Ran G σ Exception (Result UInt64) :=
  (MongoSubscriberRepository.advanceSqn subscriber.identities.impi kSqnStep kSqnMask).runIn world
    (lookedUp world params s).state

/-- The run of the request. -/
def requested : Program.Ran G σ Exception (Result MaaResult) :=
  (MongoHssClient.multimediaAuth params).runIn world s

/-- The lookup has found this record, and the update has returned this number. -/
structure Taken (subscriber : SubscriberRecord) (sqn : UInt64) : Prop where
  found : (lookedUp world params s).result = .ok (.ok subscriber)
  taken : (advanced world params s subscriber).result = .ok (.ok sqn)

/-- The three ways in which there is no token. -/
inductive Unprepared : Prop where
  | lookup (none : ¬ ∃ subscriber, (lookedUp world params s).result = .ok (.ok subscriber))
  | update {subscriber : SubscriberRecord}
      (found : (lookedUp world params s).result = .ok (.ok subscriber))
      (none : ¬ ∃ sqn, (advanced world params s subscriber).result = .ok (.ok sqn))
  | parsing {subscriber : SubscriberRecord} {sqn : UInt64}
      (taken : Taken world params s subscriber sqn)
      (none : ¬ ∃ k opc amf, KeyMaterial subscriber.auth k opc amf)

/-- The collection has answered with a record that stores this number. -/
def Stores (sqn : UInt64) : Prop :=
  ∃ s imsi record, (Includes.answer (F := repository) (RepositoryOp.findOneByField .imsi imsi)
    (world s (Includes.embed (F := repository) (RepositoryOp.findOneByField .imsi imsi))).2 :
      Result (Option SubscriberRecord)) = .ok (some record) ∧ record.auth.sqn = sqn

end

variable {world : σ → (op : G.Op) → σ × G.Answer op} {params : MarParams} {s : σ}

omit [MilenageFunctions] [OsipParser] [Includes environment G] in
/-- The number that a call returns is the one it has read. -/
theorem stores_of_advanceSqnRounds {imsi : Bytes} {step mask : UInt64} {rounds : Nat}
    (h : ((MongoSubscriberRepository.advanceSqnRounds imsi step mask rounds :
      Program G Exception _).runIn world s).result = .ok (.ok sqn)) : Stores world sqn := by
  induction rounds generalizing s with
  | zero => cases h
  | succ rounds ih =>
      obtain ⟨read, hread, h⟩ := Program.result_andThen_eq_ok_iff.mp h
      cases read with
      | none => cases h
      | some record =>
          obtain ⟨updated, hupdated, h⟩ := Program.result_andThen_eq_ok_iff.mp h
          cases updated with
          | true =>
              cases h
              exact ⟨s, imsi, record, Except.ok.inj hread, rfl⟩
          | false => exact ih h

/-- What the request does with the number that has been taken. -/
def answerWith (params : MarParams) (subscriber : SubscriberRecord) (sqn : UInt64) :
    Program G Exception (Result MaaResult) :=
  match akaMaterial (configWith subscriber sqn) with
  | .error error => .pure (.error error)
  | .ok material => do
      let rand ← randomBytes
      return (akaVector material rand).map fun authVector =>
        { sipAuthScheme := params.sipAuthScheme, authVector, subscriber }

theorem multimediaAuth_eq (params : MarParams) :
    (MongoHssClient.multimediaAuth params : Program G Exception (Result MaaResult)) =
      (MongoHssClient.findSubscriber "Subscriber not found for MAR" params.impi
        params.impu).andThen fun subscriber =>
          (MongoSubscriberRepository.advanceSqn subscriber.identities.impi kSqnStep
            kSqnMask).andThen (answerWith params subscriber) := rfl

/-- The answer with the vector for this random number. -/
def answered (params : MarParams) (subscriber : SubscriberRecord) (k opc sqn amf rand : Bytes) :
    MaaResult :=
  let out := MilenageFunctions.f2345 opc k rand
  { sipAuthScheme := params.sipAuthScheme
    authVector := { rand, autn := autnOf opc k sqn amf rand, xres := out.res, ck := out.ck
                    ik := out.ik }
    subscriber }

omit [OsipParser] [Includes repository G] in
/-- With a number, there is a vector exactly where the key material is well formed. -/
theorem result_answerWith_eq_ok_iff {maa : MaaResult} :
    ((answerWith params subscriber sqn).runIn world s).result = .ok (.ok maa) ↔
      ∃ k opc amf, KeyMaterial subscriber.auth k opc amf ∧
        maa = answered params subscriber k opc (bigEndian 6 (sqn.toNat % 2 ^ 48)) amf
          (Includes.answer (F := environment) EnvironmentOp.randomBytes
            (world s (Includes.embed (F := environment) EnvironmentOp.randomBytes)).2) := by
  rw [answerWith]
  constructor
  · intro h
    split at h
    · cases h
    · rename_i material hmaterial
      obtain ⟨k, opc, amf, hkey, rfl⟩ := akaMaterial_eq_ok_iff.mp hmaterial
      cases h
      exact ⟨k, opc, amf, hkey, rfl⟩
  · rintro ⟨k, opc, amf, hkey, rfl⟩
    rw [akaMaterial_eq_ok_iff.mpr ⟨k, opc, amf, hkey, rfl⟩]
    rfl

/-- An answer is made of the number that the update has returned, and of the material of the record
that the lookup has found. -/
theorem exists_of_requested {maa : MaaResult}
    (h : (requested world params s).result = .ok (.ok maa)) :
    ∃ subscriber sqn k opc amf rand, Taken world params s subscriber sqn ∧ Stores world sqn ∧
      KeyMaterial subscriber.auth k opc amf ∧
        maa = answered params subscriber k opc (bigEndian 6 (sqn.toNat % 2 ^ 48)) amf rand := by
  rw [requested, multimediaAuth_eq] at h
  obtain ⟨subscriber, hfound, h⟩ := Program.result_andThen_eq_ok_iff.mp h
  obtain ⟨sqn, htaken, h⟩ := Program.result_andThen_eq_ok_iff.mp h
  obtain ⟨k, opc, amf, hkey, rfl⟩ := result_answerWith_eq_ok_iff.mp h
  exact ⟨subscriber, sqn, k, opc, amf, _, ⟨hfound, htaken⟩, stores_of_advanceSqnRounds htaken, hkey,
    rfl⟩

/-- And it has sixteen bytes. -/
theorem length_autn_of_requested {maa : MaaResult}
    (h : (requested world params s).result = .ok (.ok maa)) : maa.authVector.autn.length = 16 := by
  obtain ⟨subscriber, sqn, k, opc, amf, rand, -, -, hkey, rfl⟩ := exists_of_requested h
  exact length_autnOf (length_bigEndian 6 _) (length_of_hexBytes hkey.readsAmf)

/-- The lookup, the update and the parsing are all that can fail. -/
theorem exists_requested {subscriber : SubscriberRecord}
    (htaken : Taken world params s subscriber sqn) (hkey : KeyMaterial subscriber.auth k opc amf) :
    ∃ maa, (requested world params s).result = .ok (.ok maa) := by
  suffices h : ∃ maa, ((answerWith params subscriber sqn).runIn world
      (advanced world params s subscriber).state).result = .ok (.ok maa) by
    obtain ⟨maa, h⟩ := h
    refine ⟨maa, ?_⟩
    rw [requested, multimediaAuth_eq]
    apply Program.result_andThen_eq_ok_iff.mpr
    refine ⟨subscriber, htaken.found, ?_⟩
    exact Program.result_andThen_eq_ok_iff.mpr ⟨sqn, htaken.taken, h⟩
  exact ⟨_, result_answerWith_eq_ok_iff.mpr ⟨k, opc, amf, hkey, rfl⟩⟩

/-- The token of every answer is SQN ^ AK || AMF || MAC-A for the number that the update has
returned, a stored one, in its six bytes; and there is no answer exactly where the lookup, the
update or the parsing of the key material fails. -/
theorem multimediaAuth_token (world : σ → (op : G.Op) → σ × G.Answer op) (params : MarParams)
    (s : σ) :
    (∀ maa, (requested world params s).result = .ok (.ok maa) →
      ∃ subscriber sqn k opc amf, Taken world params s subscriber sqn ∧ Stores world sqn ∧
        KeyMaterial subscriber.auth k opc amf ∧
          (sqn.toNat < 2 ^ 48 → maa.authVector.autn =
            autnOf opc k (bigEndian 6 sqn.toNat) amf maa.authVector.rand)) ∧
      ((¬ ∃ maa, (requested world params s).result = .ok (.ok maa)) ↔
        Unprepared world params s) := by
  constructor
  · intro maa h
    obtain ⟨subscriber, sqn, k, opc, amf, rand, htaken, hstored, hkey, rfl⟩ := exists_of_requested h
    refine ⟨subscriber, sqn, k, opc, amf, htaken, hstored, hkey, fun hsmall => ?_⟩
    rw [Nat.mod_eq_of_lt hsmall]
    rfl
  · constructor
    · intro hnone
      by_cases hfound : ∃ subscriber, (lookedUp world params s).result = .ok (.ok subscriber)
      · obtain ⟨subscriber, hfound⟩ := hfound
        by_cases hadvanced : ∃ sqn, (advanced world params s subscriber).result = .ok (.ok sqn)
        · obtain ⟨sqn, hadvanced⟩ := hadvanced
          refine .parsing ⟨hfound, hadvanced⟩ ?_
          rintro ⟨k, opc, amf, hkey⟩
          exact hnone (exists_requested ⟨hfound, hadvanced⟩ hkey)
        · exact .update hfound hadvanced
      · exact .lookup hfound
    · rintro hfails ⟨maa, h⟩
      obtain ⟨found, sqn, k, opc, amf, rand, htaken, -, hkey, -⟩ := exists_of_requested h
      have hsame : ∀ {subscriber : SubscriberRecord},
          (lookedUp world params s).result = .ok (.ok subscriber) → subscriber = found := by
        intro subscriber hfound
        have heq := hfound.symm.trans htaken.found
        cases heq
        rfl
      cases hfails with
      | lookup none => exact none ⟨found, htaken.found⟩
      | update hfound none =>
          cases hsame hfound
          exact none ⟨sqn, htaken.taken⟩
      | parsing htaken' none =>
          cases hsame htaken'.found
          exact none ⟨k, opc, amf, hkey⟩

end SimIms.Diameter
