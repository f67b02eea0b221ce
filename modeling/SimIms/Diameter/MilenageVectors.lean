import SimIms.Crypt.MilenageBlocks
import SimIms.Diameter.AkaTokens

/-!
# The Milenage functions of the HSS

The functions of the library, between the byte texts that the HSS works with. All texts that it
hands over have been parsed to exactly as many bytes as the spans of the adapter have.
-/

namespace SimIms.Diameter

open Cxx Lib Sip Db

/-- `std::span<const uint8_t, n>`. -/
def span (n : Nat) (bytes : Bytes) : Vector UInt8 n := .ofFn fun i => bytes.getD i 0

theorem span_toList {n : Nat} (bytes : Vector UInt8 n) : span n bytes.toList = bytes := by
  apply Vector.ext
  intro i hi
  simp [span]

/-- The subkeys of a thread that has not scheduled any key yet. -/
def initialRoundKeys : Crypt.RoundKeys := .replicate 11 (.replicate 4 (.replicate 4 0))

/-- What is computed does not depend on what the thread has computed before. -/
def computed {α : Type} (function : StateM Crypt.RoundKeys α) : α :=
  (function.run initialRoundKeys).1

instance milenageFunctions : MilenageFunctions where
  computeOPc op key := (computed (Crypt.computeOPc (span 16 op) (span 16 key))).toList
  f1 opc key rand sqn amf :=
    (computed (Crypt.f1 (span 16 opc) (span 16 key) (span 16 rand) (span 6 sqn)
      (span 2 amf))).toList
  f2345 opc key rand :=
    let keys := computed (Crypt.f2345 (span 16 opc) (span 16 key) (span 16 rand))
    { res := keys.res.toList, ck := keys.ck.toList, ik := keys.ik.toList, ak := keys.ak.toList
      length_ak := Vector.length_toList }
  length_f1 _ _ _ _ _ := Vector.length_toList

/-- The adapter in front of these functions is the one of the library, in any thread. -/
theorem generateVector_eq (opc k rand : Crypt.Block) (sqn : Vector UInt8 6) (amf : Vector UInt8 2)
    (roundKeys : Crypt.RoundKeys) :
    Milenage.generateVector opc.toList k.toList sqn.toList amf.toList rand.toList =
      .ok (let vector := ((Crypt.generateVector opc k sqn amf rand).run roundKeys).1
        { autn := vector.autn.toList, ck := vector.ck.toList, ik := vector.ik.toList
          xres := vector.xres.toList }) := by
  simp only [Milenage.generateVector, autnOf, MilenageFunctions.f1, MilenageFunctions.f2345,
    span_toList, computed, Crypt.generateVector, Crypt.run_bind, Crypt.run_f1, Crypt.run_f2345,
    Crypt.run_pure, Vector.toList_append, Vector.toList_zipWith]

/-! ### A request for a subscriber with a key -/

/-- A subscriber with a key and an operator code. -/
def keyedSubscriber : SubscriberRecord where
  imsi := bytes "001"
  tel := []
  identities :=
    { impi := bytes "001@ims.local", canonicalImpu := [], associatedImpus := [], realm := [] }
  auth :=
    { ki := List.replicate 32 '0'.toUInt8, operatorCodeType := []
      opc := List.replicate 32 '0'.toUInt8, op := [], sqn := 32, amf := [] }
  assignedScscf := []

theorem keyMaterial_keyedSubscriber :
    KeyMaterial keyedSubscriber.auth (List.replicate 16 0) (List.replicate 16 0) [0x80, 0] where
  readsKi := by decide
  readsOpc := by decide
  readsAmf := by decide

inductive MongoHssOp where
  | repository (op : RepositoryOp)
  | environment (op : EnvironmentOp)

abbrev MongoHssOp.Answer : MongoHssOp → Type
  | .repository op => RepositoryAnswer op
  | .environment op => EnvironmentAnswer op

def mongoHssOps : Interface := ⟨MongoHssOp, MongoHssOp.Answer⟩

instance : Includes repository mongoHssOps := ⟨.repository, fun _ answer => answer⟩
instance : Includes environment mongoHssOps := ⟨.environment, fun _ answer => answer⟩

/-- A collection that nobody else uses, and a random number of sixteen sevens. -/
def quietWorld (collection : Collection) :
    (op : mongoHssOps.Op) → Collection × mongoHssOps.Answer op
  | .repository op => collection.serve op none
  | .environment op =>
      let surroundings : Surroundings := { randomBytes := List.replicate 16 7 }
      (collection, surroundings.answer 0 op)

def keyedParams : MarParams where
  impi := bytes "001@ims.local"
  impu := bytes "sip:001@ims.local"
  sipAuthScheme := bytes "Digest-AKAv1-MD5"
  serverName := []

theorem findByImpiOrImpu_keyedParams :
    let _ : OsipParser := plainUris
    (MongoSubscriberRepository.findByImpiOrImpu keyedParams.impi
      (normalizeImpuUri keyedParams.impu) : MongoSubscriberRepository.Query mongoHssOps _) =
        MongoSubscriberRepository.findOneByImsiOrTel [bytes "001"] [] := by
  intro parser
  have hkeys : imsisAndTels keyedParams.impi (normalizeImpuUri keyedParams.impu) =
      ([bytes "001"], []) := by decide +kernel
  rw [MongoSubscriberRepository.findByImpiOrImpu, hkeys]

theorem taken_keyedSubscriber :
    let _ : OsipParser := plainUris
    Taken quietWorld keyedParams [keyedSubscriber] keyedSubscriber 32 := by
  intro parser
  have himsi : (privateIdentityImsi keyedSubscriber.identities.impi).getD
      keyedSubscriber.identities.impi = bytes "001" := by decide +kernel
  refine ⟨?_, ?_⟩
  · rw [lookedUp, MongoHssClient.findSubscriber, findByImpiOrImpu_keyedParams]
    rfl
  · rw [advanced, lookedUp, MongoHssClient.findSubscriber, findByImpiOrImpu_keyedParams,
      MongoSubscriberRepository.advanceSqn, himsi]
    rfl

/-- The token is made with the number that has been stored; nobody else has one. -/
theorem multimediaAuth_token_keyed :
    let _ : OsipParser := plainUris
    (∃ maa, (requested quietWorld keyedParams [keyedSubscriber]).result = .ok (.ok maa) ∧
      maa.authVector.autn = autnOf (List.replicate 16 0) (List.replicate 16 0) (bigEndian 6 32)
        [0x80, 0] maa.authVector.rand) ∧
      ¬ ∃ maa, (requested quietWorld keyedParams []).result = .ok (.ok maa) := by
  intro parser
  have htaken := taken_keyedSubscriber
  constructor
  · obtain ⟨maa, hmaa⟩ := exists_requested htaken keyMaterial_keyedSubscriber
    obtain ⟨subscriber, sqn, k, opc, amf, htaken', -, hkey, htoken⟩ :=
      (multimediaAuth_token quietWorld keyedParams [keyedSubscriber]).1 maa hmaa
    cases htaken.found.symm.trans htaken'.found
    cases htaken.taken.symm.trans htaken'.taken
    obtain ⟨hk, hopc, hamf⟩ := hkey
    obtain ⟨hk', hopc', hamf'⟩ := keyMaterial_keyedSubscriber
    cases hk'.symm.trans hk
    cases hopc'.symm.trans hopc
    cases hamf'.symm.trans hamf
    exact ⟨maa, hmaa, htoken (by decide)⟩
  · apply (multimediaAuth_token quietWorld keyedParams []).2.mpr
    refine .lookup ?_
    rintro ⟨subscriber, h⟩
    rw [lookedUp, MongoHssClient.findSubscriber, findByImpiOrImpu_keyedParams] at h
    cases h

end SimIms.Diameter
