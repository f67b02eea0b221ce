import SimIms.Db.SubscriberRepository

/-!
# Who is found under which identities

Updates change the sequence number and the serving S-CSCF of a record, never the keys by which
it is found. So a pair of identities stands for one subscriber as long as the collection is
updated by nothing else.
-/

namespace SimIms.Db

open Cxx Lib Sip

/-- What no update of a record changes. -/
structure SubscriberView where
  imsi : Bytes
  tel : Bytes
  identities : SubscriberIdentities
deriving DecidableEq, Repr

def SubscriberRecord.view (subscriber : SubscriberRecord) : SubscriberView :=
  ⟨subscriber.imsi, subscriber.tel, subscriber.identities⟩

/-- A record without what updates change. -/
def SubscriberRecord.fixed (subscriber : SubscriberRecord) : SubscriberRecord :=
  { subscriber with auth := { subscriber.auth with sqn := 0 }, assignedScscf := [] }

@[simp] theorem Field.value_fixed (subscriber : SubscriberRecord) (field : Field) :
    field.value subscriber.fixed = field.value subscriber := by
  cases field <;> rfl

def Field.ofView (view : SubscriberView) : Field → Bytes
  | .imsi => view.imsi
  | .tel => view.tel

theorem Field.value_eq (subscriber : SubscriberRecord) (field : Field) :
    field.value subscriber = field.ofView subscriber.view := by
  cases field <;> rfl

namespace Collection

def views (collection : Collection) : List SubscriberView := collection.map SubscriberRecord.view

/-- The first record with this value. -/
def findView (views : List SubscriberView) (field : Field) (value : Bytes) :
    Option SubscriberView :=
  views.find? fun view => field.ofView view == value

theorem view_find? (collection : Collection) (field : Field) (value : Bytes) :
    (collection.find? fun subscriber => field.value subscriber == value).map SubscriberRecord.view =
      findView collection.views field value := by
  rw [findView, views, List.find?_map]
  simp only [Field.value_eq]
  rfl

/-- What an update changes of no record, it does not change of the collection. -/
theorem map_updateOne {α : Type} (f : SubscriberRecord → α) (collection : Collection)
    (filter : SubscriberRecord → Bool) {update : SubscriberRecord → SubscriberRecord}
    (h : ∀ subscriber, f (update subscriber) = f subscriber) :
    (collection.updateOne filter update).1.map f = collection.map f := by
  obtain heq | ⟨before, subscriber, after, rfl, -, heq⟩ := collection.updateOne_cases filter update
  · rw [heq]
  · rw [heq, List.map_append, List.map_cons, h, List.map_append, List.map_cons]

theorem views_updateOne (collection : Collection) (filter : SubscriberRecord → Bool)
    {update : SubscriberRecord → SubscriberRecord}
    (h : ∀ subscriber, (update subscriber).view = subscriber.view) :
    (collection.updateOne filter update).1.views = collection.views :=
  map_updateOne SubscriberRecord.view collection filter h

/-- No operation changes by which identities subscribers are found. -/
theorem views_serve (collection : Collection) (op : RepositoryOp) (error? : Option ErrorInfo) :
    (collection.serve op error?).1.views = collection.views := by
  cases error? with
  | some error => cases op <;> rfl
  | none =>
      cases op with
      | findOneByField field value => rfl
      | updateSqn imsi oldSqn newSqn => exact views_updateOne collection _ fun _ => rfl
      | updateServing imsi scscfUri => exact views_updateOne collection _ fun _ => rfl

/-- The records without what updates change. -/
def fixed (collection : Collection) : Collection := collection.map SubscriberRecord.fixed

theorem fixed_serve (collection : Collection) (op : RepositoryOp) (error? : Option ErrorInfo) :
    (collection.serve op error?).1.fixed = collection.fixed := by
  cases error? with
  | some error => cases op <;> rfl
  | none =>
      cases op with
      | findOneByField field value => rfl
      | updateSqn imsi oldSqn newSqn =>
          exact map_updateOne SubscriberRecord.fixed collection _ fun _ => rfl
      | updateServing imsi scscfUri =>
          exact map_updateOne SubscriberRecord.fixed collection _ fun _ => rfl

variable [OsipParser]

/-- The subscriber that a pair of identities stands for. -/
def resolve (views : List SubscriberView) (impi impu : Bytes) : Option SubscriberView :=
  ((imsisAndTels impi impu).1.findSome? (findView views .imsi)).or
    ((imsisAndTels impi impu).2.findSome? (findView views .tel))

end Collection
end SimIms.Db
