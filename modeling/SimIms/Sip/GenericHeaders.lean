import Mathlib.Data.List.Chain
import SimIms.Sip.Headers

/-!
# Header fields by their names

`osip_message_header_get_byname` searches from a position on and returns where it has found a
field. `getHeaders` goes on with the next position, not with the one after that field, so it finds
the field again. `removeHeader` takes out what is at the position where it began, and frees what it
has found. Both are right where no other field stands in between.
-/

namespace SimIms.Sip

open Cxx

/-- The names that `getHeaders` or `removeHeader` looks up elsewhere. -/
def storedElsewhere : List Bytes :=
  [bytes "contact", bytes "route", bytes "record-route", bytes "authorization",
    bytes "proxy-authorization", bytes "www-authenticate", bytes "proxy-authenticate"]

def IsGenericName (name : Bytes) : Prop := lowercase name ∉ storedElsewhere

instance (name : Bytes) : Decidable (IsGenericName name) :=
  inferInstanceAs (Decidable (lowercase name ∉ storedElsewhere))

def Header.IsNamed (name : Bytes) (header : Header) : Prop := sameName header.name name = true

instance (name : Bytes) (header : Header) : Decidable (header.IsNamed name) :=
  inferInstanceAs (Decidable (sameName header.name name = true))

/-- Where the first field of that name is, from a position on. -/
def headerGetByname (headers : List Header) (name : Bytes) (pos : Nat) : Option Nat :=
  ((headers.drop pos).findIdx? fun header => sameName header.name name).map (pos + ·)

/-- What there is to be read. -/
def valuesNamed (name : Bytes) (headers : List Header) : List Bytes :=
  (headers.filter fun header => sameName header.name name).filterMap Header.value

/-! ## Reading -/

section

open SipMessage

variable {name : Bytes} {header : Header} {headers : List Header}

theorem find?_eq_getElem?_findIdx? (name : Bytes) (headers : List Header) :
    headers.find? (fun header => sameName header.name name) =
      (headers.findIdx? fun header => sameName header.name name).bind (headers[·]?) := by
  induction headers with
  | nil => rfl
  | cons header rest ih =>
      rw [List.find?_cons, List.findIdx?_cons]
      cases sameName header.name name with
      | true => rfl
      | false =>
          rw [if_neg Bool.false_ne_true, Option.bind_map]
          exact ih

/-- The loop of `getHeaders`, at a position. -/
theorem headerValues_drop (name : Bytes) (headers : List Header) (pos : Nat) :
    headerValues name (headers.drop pos) =
      ((headerGetByname headers name pos).map fun found =>
        (headers[found]?.bind Header.value).toList ++
          headerValues name (headers.drop (pos + 1))).getD [] := by
  rw [headerGetByname, ← List.drop_drop]
  have hget : ∀ i : Nat, headers[pos + i]? = (headers.drop pos)[i]? :=
    fun i => List.getElem?_drop.symm
  simp only [Option.map_map, Function.comp_def, hget]
  cases headers.drop pos with
  | nil => rfl
  | cons header rest =>
      rw [headerValues, find?_eq_getElem?_findIdx?]
      cases hfound : (header :: rest).findIdx? fun header => sameName header.name name with
      | none => rfl
      | some i =>
          obtain ⟨hlt, -⟩ := List.findIdx?_eq_some_iff_getElem.mp hfound
          have hsome : (header :: rest)[i]? = some (header :: rest)[i] :=
            List.getElem?_eq_getElem hlt
          simp only [Option.bind_some, Option.map_some, Option.getD_some, hsome]
          rfl

theorem find?_cons_of_named (hnamed : header.IsNamed name) (rest : List Header) :
    (header :: rest).find? (fun header => sameName header.name name) = some header :=
  List.find?_cons_of_pos (p := fun header : Header => sameName header.name name) hnamed

theorem find?_cons_of_not_named (hnamed : ¬ header.IsNamed name) (rest : List Header) :
    (header :: rest).find? (fun header => sameName header.name name) =
      rest.find? fun header => sameName header.name name :=
  List.find?_cons_of_neg (p := fun header : Header => sameName header.name name) hnamed

theorem headerValues_cons_of_named (hnamed : header.IsNamed name) (rest : List Header) :
    headerValues name (header :: rest) = header.value.toList ++ headerValues name rest := by
  rw [headerValues, find?_cons_of_named hnamed]

theorem headerValues_cons_of_not_named (hnamed : ¬ header.IsNamed name) (rest : List Header) :
    headerValues name (header :: rest) =
      ((rest.find? fun header => sameName header.name name).bind Header.value).toList ++
        headerValues name rest := by
  rw [headerValues, find?_cons_of_not_named hnamed]
  cases rest with
  | nil => rfl
  | cons next rest =>
      cases hfind : (next :: rest).find? fun header => sameName header.name name with
      | none =>
          rw [headerValues, hfind]
          rfl
      | some found => rfl

theorem valuesNamed_cons_of_named (hnamed : header.IsNamed name) (rest : List Header) :
    valuesNamed name (header :: rest) = header.value.toList ++ valuesNamed name rest := by
  rw [valuesNamed, List.filter_cons_of_pos
    (p := fun header : Header => sameName header.name name) hnamed, List.filterMap_cons]
  cases header.value with
  | none => rfl
  | some value => rfl

theorem valuesNamed_cons_of_not_named (hnamed : ¬ header.IsNamed name) (rest : List Header) :
    valuesNamed name (header :: rest) = valuesNamed name rest := by
  rw [valuesNamed, List.filter_cons_of_neg
    (p := fun header : Header => sameName header.name name) hnamed, valuesNamed]

/-- Nothing is missed. -/
theorem length_valuesNamed_le (name : Bytes) (headers : List Header) :
    (valuesNamed name headers).length ≤ (headerValues name headers).length := by
  induction headers with
  | nil => exact Nat.le_refl 0
  | cons header rest ih =>
      by_cases hnamed : header.IsNamed name
      · rw [valuesNamed_cons_of_named hnamed, headerValues_cons_of_named hnamed,
          List.length_append, List.length_append]
        exact Nat.add_le_add_left ih _
      · rw [valuesNamed_cons_of_not_named hnamed, headerValues_cons_of_not_named hnamed,
          List.length_append]
        exact Nat.le_trans ih (Nat.le_add_left _ _)

/-- A field of this name that has a value comes right after one of this name, or first. -/
def ValuesAdjacent (name : Bytes) (headers : List Header) : Prop :=
  headers.IsChain fun header next =>
    next.IsNamed name → next.value ≠ none → header.IsNamed name

/-- After a field of another name, the next one of this name has no value. -/
theorem value_eq_none_of_find? {found : Header} (hnamed : ¬ header.IsNamed name)
    (hadjacent : ValuesAdjacent name (header :: headers))
    (hfind : headers.find? (fun header => sameName header.name name) = some found) :
    found.value = none := by
  induction headers generalizing header with
  | nil => cases hfind
  | cons next rest ih =>
      obtain ⟨hhead, hrest⟩ := List.isChain_cons_cons.mp hadjacent
      by_cases hnext : next.IsNamed name
      · rw [find?_cons_of_named hnext] at hfind
        cases hfind
        by_contra hvalue
        exact hnamed (hhead hnext hvalue)
      · rw [find?_cons_of_not_named hnext] at hfind
        exact ih hnext hrest hfind

theorem headerValues_eq_iff (name : Bytes) (headers : List Header) :
    headerValues name headers = valuesNamed name headers ↔ ValuesAdjacent name headers := by
  induction headers with
  | nil => exact iff_of_true rfl .nil
  | cons header rest ih =>
      by_cases hnamed : header.IsNamed name
      · rw [headerValues_cons_of_named hnamed, valuesNamed_cons_of_named hnamed,
          List.append_cancel_left_eq, ih, ValuesAdjacent, ValuesAdjacent, List.isChain_cons]
        exact (and_iff_right fun _ _ _ _ => hnamed).symm
      · rw [headerValues_cons_of_not_named hnamed, valuesNamed_cons_of_not_named hnamed]
        constructor
        · intro heq
          -- What is read for this position is read again later, so it is nothing.
          have hlength := congrArg List.length heq
          rw [List.length_append] at hlength
          have hle := length_valuesNamed_le name rest
          have hnothing := List.eq_nil_of_length_eq_zero (by omega :
            ((rest.find? fun header => sameName header.name name).bind Header.value).toList.length
              = 0)
          rw [hnothing, List.nil_append] at heq
          refine List.isChain_cons.mpr ⟨fun next hnext hnextNamed hvalue => ?_, ih.mp heq⟩
          cases rest with
          | nil => cases hnext
          | cons first rest =>
              cases hnext
              rw [find?_cons_of_named hnextNamed] at hnothing
              exact (hvalue (Option.toList_eq_nil_iff.mp hnothing)).elim
        · intro hadjacent
          have hnothing : (rest.find? fun header => sameName header.name name).bind Header.value =
              none := by
            cases hfind : rest.find? fun header => sameName header.name name with
            | none => rfl
            | some found => exact value_eq_none_of_find? hnamed hadjacent hfind
          rw [hnothing]
          exact ih.mpr (List.isChain_cons.mp hadjacent).2

/-- A field that is added is found for every position after the last one of its name. -/
theorem headerValues_append (name value : Bytes) (headers : List Header) :
    ∃ more, headerValues name (headers ++ [⟨name, some value⟩]) =
        headerValues name headers ++ List.replicate (more + 1) value ∧
      (more = 0 ↔ ∀ last ∈ headers.getLast?, last.IsNamed name) := by
  have hself : Header.IsNamed name ⟨name, some value⟩ := by
    rw [Header.IsNamed, sameName, beq_self_eq_true]
  induction headers with
  | nil =>
      refine ⟨0, ?_, iff_of_true rfl fun _ hmem => by cases hmem⟩
      rw [List.nil_append, headerValues_cons_of_named hself]
      rfl
  | cons header rest ih =>
      obtain ⟨more, heq, hiff⟩ := ih
      by_cases hnamed : header.IsNamed name
      · refine ⟨more, ?_, hiff.trans ?_⟩
        · rw [List.cons_append, headerValues_cons_of_named hnamed, heq,
            headerValues_cons_of_named hnamed, List.append_assoc]
        · cases rest with
          | nil =>
              refine iff_of_true (fun _ hmem => by cases hmem) fun last hmem => ?_
              cases hmem
              exact hnamed
          | cons next rest => rw [List.getLast?_cons_cons]
      · rw [List.cons_append, headerValues_cons_of_not_named hnamed,
          headerValues_cons_of_not_named hnamed, heq, List.find?_append]
        cases hfind : rest.find? fun header => sameName header.name name with
        | some found =>
            refine ⟨more, by rw [Option.some_or, List.append_assoc], hiff.trans ?_⟩
            cases rest with
            | nil => cases hfind
            | cons next rest => rw [List.getLast?_cons_cons]
        | none =>
            -- Nothing of this name comes before it, so nothing has been read yet.
            have hnone : headerValues name rest = [] := by
              cases rest with
              | nil => rfl
              | cons next rest => rw [headerValues, hfind]
            rw [Option.none_or, find?_cons_of_named hself, hnone]
            refine ⟨more + 1, rfl, iff_of_false (Nat.succ_ne_zero more) fun hall => ?_⟩
            obtain ⟨last, hlast⟩ : ∃ last, (header :: rest).getLast? = some last :=
              ⟨_, List.getLast?_eq_some_getLast (List.cons_ne_nil _ _)⟩
            have hlastNamed := hall last hlast
            obtain heq | hmem := List.mem_cons.mp (List.mem_of_getLast? hlast)
            · rw [heq] at hlastNamed
              exact hnamed hlastNamed
            · exact List.find?_eq_none.mp hfind last hmem hlastNamed

end

/-- A name without a place of its own is read in the list of the others. -/
theorem SipMessage.getHeaders_eq {name : Bytes} (hgeneric : IsGenericName name) (msg : SipMessage) :
    msg.getHeaders name = headerValues name msg.headers := by
  rw [getHeaders, if_neg, if_neg]
  · exact fun heq => hgeneric (heq ▸ by decide)
  · exact fun heq => hgeneric (heq ▸ by decide)

/-- The fields of a name are read once each, in their order, and what is added is read after them,
exactly if each of them with a value comes first or right after another one and the last field of
all is one of them. -/
theorem getHeaders_exact_iff (msg : SipMessage) (name : Bytes) (hgeneric : IsGenericName name) :
    (msg.getHeaders name = valuesNamed name msg.headers ∧
      ∀ value, (msg.addHeader name value).getHeaders name = msg.getHeaders name ++ [value]) ↔
    ValuesAdjacent name msg.headers ∧ ∀ last ∈ msg.headers.getLast?, last.IsNamed name := by
  rw [SipMessage.getHeaders_eq hgeneric, headerValues_eq_iff]
  refine and_congr_right fun _ => ?_
  constructor
  · intro hadd
    obtain ⟨more, heq, hiff⟩ := headerValues_append name [] msg.headers
    have hsame := hadd []
    rw [SipMessage.getHeaders_eq hgeneric, SipMessage.addHeader, heq,
      List.append_cancel_left_eq] at hsame
    have hlength := congrArg List.length hsame
    rw [List.length_replicate, List.length_singleton] at hlength
    exact hiff.mp (Nat.succ.inj hlength)
  · intro hlast value
    obtain ⟨more, heq, hiff⟩ := headerValues_append name value msg.headers
    rw [SipMessage.getHeaders_eq hgeneric, SipMessage.addHeader, heq, hiff.mpr hlast]
    rfl

/-- A message with `Max-Forwards` in front of its other fields. -/
def forwardedMessage (headers : List Header) : SipMessage :=
  { dialogRequest "REGISTER" (bytes "a") [] with
    headers := ⟨bytes "Max-Forwards", some (bytes "70")⟩ :: headers }

theorem getHeaders_exact_iff_maxForwards :
    (forwardedMessage []).getHeaders (bytes "Max-Forwards") = [bytes "70"] ∧
      ∀ value, ((forwardedMessage []).addHeader (bytes "Max-Forwards") value).getHeaders
        (bytes "Max-Forwards") = [bytes "70"] ++ [value] :=
  (getHeaders_exact_iff (forwardedMessage []) (bytes "Max-Forwards") (by decide)).mpr
    ⟨.singleton _, fun last hmem => by cases hmem; decide⟩

/-- The second field is found from both positions. -/
theorem path_is_read_twice :
    (forwardedMessage [⟨bytes "Path", some (bytes "<sip:pcscf>")⟩]).getHeaders (bytes "Path") =
      [bytes "<sip:pcscf>", bytes "<sip:pcscf>"] := by
  decide +kernel

/-! ## Removing -/

/-- The list `headers`, with the numbers of its objects, and what has been freed. -/
structure HeaderHeap where
  entries : List (Header × Nat)
  freed : List Nat

/-- The object that `osip_message_header_get_byname` finds from the start, if there is one. What
comes of looking at an object that has been freed is not defined. -/
def searchByname (name : Bytes) (freed : List Nat) : List (Header × Nat) → Option (Option Nat)
  | [] => some none
  | (header, object) :: rest =>
      if object ∈ freed then none
      else if sameName header.name name then some (some object)
      else searchByname name freed rest

/-- The loop of `removeHeader`: what is taken out is the first entry, whatever has been found. -/
def removeByname (name : Bytes) : List (Header × Nat) → List Nat → Option HeaderHeap
  | [], freed => some ⟨[], freed⟩
  | entry :: rest, freed =>
      match searchByname name freed (entry :: rest) with
      | none => none
      | some none => some ⟨entry :: rest, freed⟩
      | some (some object) => removeByname name rest (object :: freed)

/-- The message and its list, unless that is not defined. -/
def SipMessage.removeHeader (msg : SipMessage) (name : Bytes) :
    Option (SipMessage × HeaderHeap) :=
  if lowercase name = bytes "contact" then
    some ({ msg with contacts := [] }, ⟨msg.headers.zipIdx, []⟩)
  else if lowercase name = bytes "route" then
    some ({ msg with routes := [] }, ⟨msg.headers.zipIdx, []⟩)
  else if lowercase name = bytes "record-route" then
    some ({ msg with recordRoutes := [] }, ⟨msg.headers.zipIdx, []⟩)
  else
    (removeByname name msg.headers.zipIdx []).map fun heap =>
      ({ msg with headers := heap.entries.map Prod.fst }, heap)

section

variable {name : Bytes} {entries rest : List (Header × Nat)} {freed : List Nat}

/-- Fields of this name come before all others. -/
def NamedFirst (name : Bytes) (headers : List Header) : Prop :=
  headers.Pairwise fun header next => next.IsNamed name → header.IsNamed name

/-- What has been freed is found no more. -/
theorem searchByname_eq_none {found : Header × Nat}
    (hfind : entries.find? (fun entry => sameName entry.1.name name) = some found)
    (hfreed : found.2 ∈ freed) : searchByname name freed entries = none := by
  induction entries with
  | nil => cases hfind
  | cons entry rest ih =>
      rw [searchByname]
      split
      · rfl
      · rename_i hkept
        rw [List.find?_cons] at hfind
        cases hnamed : sameName entry.1.name name with
        | true =>
            rw [hnamed] at hfind
            cases hfind
            exact (hkept hfreed).elim
        | false =>
            rw [hnamed] at hfind
            exact ih hfind

theorem searchByname_eq_find? (hkept : ∀ entry ∈ entries, entry.2 ∉ freed) :
    searchByname name freed entries =
      some ((entries.find? fun entry => sameName entry.1.name name).map Prod.snd) := by
  induction entries with
  | nil => rfl
  | cons entry rest ih =>
      rw [searchByname, if_neg (hkept entry List.mem_cons_self), List.find?_cons]
      cases sameName entry.1.name name with
      | true => rfl
      | false => exact ih fun other hmem => hkept other (List.mem_cons_of_mem _ hmem)

theorem removeByname_exact_iff (hdistinct : (entries.map Prod.snd).Nodup)
    (hkept : ∀ entry ∈ entries, entry.2 ∉ freed) :
    (∃ heap, removeByname name entries freed = some heap ∧
      heap.entries = entries.filter (fun entry => !sameName entry.1.name name) ∧
      ∀ entry ∈ heap.entries, entry.2 ∉ heap.freed) ↔
    NamedFirst name (entries.map Prod.fst) := by
  induction entries generalizing freed with
  | nil =>
      refine iff_of_true ⟨⟨[], freed⟩, rfl, rfl, fun _ hmem => by cases hmem⟩ .nil
  | cons entry rest ih =>
      obtain ⟨hnew, hrest⟩ := List.nodup_cons.mp hdistinct
      rw [removeByname, searchByname_eq_find? hkept, List.find?_cons, List.filter_cons,
        List.map_cons, NamedFirst, List.pairwise_cons]
      cases hnamed : sameName entry.1.name name with
      | true =>
          have hfreed : ∀ other ∈ rest, other.2 ∉ entry.2 :: freed := by
            intro other hmem hin
            obtain heq | hin := List.mem_cons.mp hin
            · exact hnew (heq ▸ List.mem_map_of_mem hmem)
            · exact hkept other (List.mem_cons_of_mem _ hmem) hin
          exact (ih hrest hfreed).trans (and_iff_right fun _ _ _ => hnamed).symm
      | false =>
          cases hfind : rest.find? fun entry => sameName entry.1.name name with
          | none =>
              have hothers : ∀ header ∈ rest.map Prod.fst, ¬ header.IsNamed name := by
                intro header hmem
                obtain ⟨other, hother, rfl⟩ := List.mem_map.mp hmem
                exact List.find?_eq_none.mp hfind other hother
              refine iff_of_true ⟨⟨entry :: rest, freed⟩, rfl, ?_, hkept⟩
                ⟨fun next hnext hnextNamed => (hothers next hnext hnextNamed).elim, ?_⟩
              · refine congrArg (entry :: ·) (List.filter_eq_self.mpr fun other hmem => ?_).symm
                rw [Bool.not_eq_true', ← Bool.not_eq_true]
                exact List.find?_eq_none.mp hfind other hmem
              · exact List.pairwise_of_forall_mem_list fun _ _ next hnext hnextNamed =>
                  (hothers next hnext hnextNamed).elim
          | some found =>
              -- The first entry goes instead of this one, which is freed and found again.
              refine iff_of_false ?_ fun h => ?_
              · rintro ⟨heap, hremove, -⟩
                have hundefined : removeByname name rest (found.2 :: freed) = none := by
                  cases rest with
                  | nil => cases hfind
                  | cons next rest =>
                      rw [removeByname, searchByname_eq_none hfind List.mem_cons_self]
                cases hundefined.symm.trans hremove
              · have hmem := List.mem_map_of_mem (f := Prod.fst) (List.mem_of_find?_eq_some hfind)
                have hfound : found.1.IsNamed name := List.find?_some
                  (p := fun entry : Header × Nat => sameName entry.1.name name) hfind
                have hentry : entry.1.IsNamed name := h.1 found.1 hmem hfound
                rw [Header.IsNamed, hnamed] at hentry
                cases hentry

end

/-- The fields of a name are removed, the others are kept and nothing that is kept is freed,
exactly if those to be removed come before all others. -/
theorem removeHeader_exact_iff (msg : SipMessage) (name : Bytes) (hgeneric : IsGenericName name) :
    (∃ heap, msg.removeHeader name = some ({ msg with
        headers := msg.headers.filter fun header => !sameName header.name name }, heap) ∧
      heap.entries = msg.headers.zipIdx.filter (fun entry => !sameName entry.1.name name) ∧
      ∀ entry ∈ heap.entries, entry.2 ∉ heap.freed) ↔
    NamedFirst name msg.headers := by
  have hdistinct : (msg.headers.zipIdx.map Prod.snd).Nodup := by
    rw [List.zipIdx_map_snd]
    exact List.nodup_range'
  have hremove : msg.removeHeader name = (removeByname name msg.headers.zipIdx []).map fun heap =>
      ({ msg with headers := heap.entries.map Prod.fst }, heap) := by
    rw [SipMessage.removeHeader, if_neg, if_neg, if_neg]
    all_goals exact fun heq => hgeneric (heq ▸ by decide)
  have hkept : ∀ entry ∈ msg.headers.zipIdx, entry.2 ∉ ([] : List Nat) :=
    fun _ _ => List.not_mem_nil
  have hiff := @removeByname_exact_iff name _ _ hdistinct hkept
  rw [List.zipIdx_map_fst] at hiff
  rw [← hiff, hremove]
  constructor
  · rintro ⟨heap, hsome, hentries, hkept⟩
    obtain ⟨heap', hsome', heq⟩ := Option.map_eq_some_iff.mp hsome
    obtain rfl := (Prod.mk.inj heq).2
    exact ⟨heap', hsome', hentries, hkept⟩
  · rintro ⟨heap, hsome, hentries, hkept⟩
    refine ⟨heap, ?_, hentries, hkept⟩
    have hheaders : msg.headers.filter (fun header => !sameName header.name name) =
        heap.entries.map Prod.fst := by
      conv_lhs => rw [← List.zipIdx_map_fst 0 msg.headers]
      rw [hentries, List.filter_map]
      rfl
    rw [hsome, hheaders]
    rfl

theorem removeHeader_exact_iff_maxForwards :
    ∃ heap, (forwardedMessage [⟨bytes "Event", some (bytes "reg")⟩]).removeHeader
        (bytes "Max-Forwards") =
          some ({ forwardedMessage [] with
            headers := [⟨bytes "Event", some (bytes "reg")⟩] }, heap) ∧
      heap.entries = [(⟨bytes "Event", some (bytes "reg")⟩, 1)] ∧
      ∀ entry ∈ heap.entries, entry.2 ∉ heap.freed :=
  (removeHeader_exact_iff (forwardedMessage [⟨bytes "Event", some (bytes "reg")⟩])
    (bytes "Max-Forwards") (by decide)).mpr
      (.cons (fun _ _ _ => by decide) (List.pairwise_singleton _ _))

/-- `Max-Forwards` is taken out in place of the other field, which is freed. -/
theorem removed_field_is_found_again :
    (forwardedMessage [⟨bytes "Event", some (bytes "reg")⟩]).removeHeader (bytes "Event") =
      none := by
  decide +kernel

end SimIms.Sip
