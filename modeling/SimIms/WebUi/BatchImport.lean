import SimIms.Lib.Numerals
import SimIms.WebUi.PlainTexts
import SimIms.WebUi.UeEndpoints

/-!
# Batches of UEs

`POST /api/ue/batch` numbers UEs consecutively from a first IMSI on. The IMSIs are padded to the
width of the first one and may outgrow it, and the telephone numbers end in digits of the IMSI, of
which there may be too few: neither is looked at before the batch is written.
-/

namespace SimIms.WebUi

open Lib

/-! ## Numbers as texts -/

def digitsOf (text : JsString) : List Nat := text.map fun unit => unit.toNat - 0x30

/-- `BigInt(text)`, for a text of digits. -/
def bigInt (text : JsString) : Nat := numeral 10 (digitsOf text)

/-- `value.toString()`. -/
def jsDecimal (value : Nat) : JsString := (Nat.toDigits 10 value).map fun c => .ofNat c.toNat

/-- `text.padStart(width, '0')`. -/
def padStart (text : JsString) (width : Nat) : JsString :=
  List.replicate (width - text.length) 0x30 ++ text

def parsePositiveInteger (rawValue : Option JsString) (fallbackValue : Nat) (field : JsString) :
    Checked Nat :=
  let value := jsTrim (rawValue.getD [])
  if value = [] then .ok fallbackValue
  else
    match parseInt value 10 with
    | none => .error (field ++ js " 必须是非负整数")
    | some n =>
        if ¬ isFinite n ∨ n < 0 then .error (field ++ js " 必须是非负整数") else .ok n.toNat

/-- An array longer than `2 ^ 32 - 1` cannot be made. -/
def generateSequentialImsis (startImsi countRaw : Option JsString) : Checked (List JsString) := do
  let normalizedStart ← ensureNonEmpty startImsi (js "起始 IMSI")
  if ¬ IsDigits normalizedStart then throw (js "起始 IMSI 必须是纯数字")
  else
    let count ← parsePositiveInteger countRaw 0 (js "UE 数量")
    if count = 0 then throw (js "UE 数量必须大于 0")
    else if 2 ^ 32 ≤ count then throw (js "Invalid array length")
    else
      return (List.range count).map fun index =>
        padStart (jsDecimal (bigInt normalizedStart + index)) normalizedStart.length

/-! ## Templates -/

structure TemplatePayload where
  name : Option JsString := none
  realm : Option JsString := none
  password : Option JsString := none
  ki : Option JsString := none
  operatorCodeType : Option JsString := none
  operatorCode : Option JsString := none
  amf : Option JsString := none
  assignedScscf : Option JsString := none
  telPrefix : Option JsString := none
  telFromImsiDigits : Option JsString := none
  sqnStart : Option JsString := none
  sqnStep : Option JsString := none

/-- What `normalizeTemplate` returns, the time apart. Numbers past `2 ^ 53` are not rounded here. -/
structure Template where
  name : JsString
  realm : JsString
  password : JsString
  ki : JsString
  operatorCodeType : JsString
  operatorCode : JsString
  amf : JsString
  assignedScscf : JsString
  telPrefix : JsString
  telFromImsiDigits : Nat
  sqnStart : JsString
  sqnStep : JsString
deriving DecidableEq

def normalizeTemplate (payload : TemplatePayload) (defaultScscfUri : JsString) :
    Checked Template := do
  let name ← ensureNonEmpty payload.name (js "模板名称")
  let realm ← ensureNonEmpty payload.realm (js "Realm")
  let password ← ensureNonEmpty payload.password (js "Password")
  let ki ← ensureHex (← ensureNonEmpty payload.ki (js "KI")) 32 (js "KI")
  let operatorCodeType ← ensureNonEmpty payload.operatorCodeType (js "OperatorCodeType")
  let operatorCode ← ensureHex (← ensureNonEmpty payload.operatorCode (js "OperatorCode")) 32
    (jsToUpperCase operatorCodeType)
  let amf ← ensureHex (trimmedOr payload.amf (js "8000")) 4 (js "AMF")
  let assignedScscf := trimmedOr payload.assignedScscf defaultScscfUri
  let telPrefix := trimmedOr payload.telPrefix []
  let telFromImsiDigits ← parsePositiveInteger payload.telFromImsiDigits 11 (js "telFromImsiDigits")
  let sqnStart ← parseSqn payload.sqnStart
  let sqnStep ← parsePositiveInteger payload.sqnStep 1 (js "sqnStep")
  if operatorCodeType ≠ js "opc" ∧ operatorCodeType ≠ js "op" then
    throw (js "operatorCodeType 只能是 opc 或 op")
  return { name, realm, password, ki, operatorCodeType, operatorCode, amf, assignedScscf, telPrefix
           telFromImsiDigits, sqnStart := js (toString sqnStart), sqnStep := jsDecimal sqnStep }

/-- The stored template, as the batch hands it to `normalizeTemplate`. -/
def templateOf (document : Document) : TemplatePayload :=
  let text (name : String) (fallback : JsString) : Option JsString :=
    some (textOr (document.lookup name) fallback)
  { name := text "name" []
    realm := text "realm" []
    password := text "password" []
    ki := text "ki" []
    operatorCodeType := text "operatorCodeType" (js "opc")
    operatorCode := text "operatorCode" []
    amf := text "amf" (js "8000")
    assignedScscf := text "assignedScscf" []
    telPrefix := text "telPrefix" []
    telFromImsiDigits := text "telFromImsiDigits" (js "11")
    sqnStart := text "sqnStart" (js "0")
    sqnStep := text "sqnStep" (js "1") }

/-- The payload for one UE of a template. -/
def Template.payload (template : Template) (imsi : JsString) : UePayload :=
  let tel :=
    if template.telPrefix ≠ [] ∧ 0 < template.telFromImsiDigits then
      template.telPrefix ++ lastOf template.telFromImsiDigits imsi
    else []
  { imsi := some imsi
    realm := some template.realm
    tel := some tel
    password := some template.password
    ki := some template.ki
    operatorCodeType := some template.operatorCodeType
    operatorCode := some template.operatorCode
    sqn := some template.sqnStart
    amf := some template.amf
    assignedScscf := some template.assignedScscf }

def buildSubscriberDocumentFromTemplate (imsi : JsString) (template : Template) :
    Checked Document :=
  buildSubscriberDocument (template.payload imsi) template.assignedScscf

/-! ## The handler -/

structure BatchPayload where
  templateId : Option JsString := none
  startImsi : Option JsString := none
  ueCount : Option JsString := none

/-- What is made of a request before anything is written. -/
structure Batch where
  template : Template
  documents : List Document

section

variable [MongoDriver] (defaultScscfUri : JsString) (templates : ObjectId → Option Document)

/-- The first part of `POST /api/ue/batch`, up to the write. -/
def readBatch (payload : BatchPayload) : Checked Batch := do
  let templateId ← ensureNonEmpty payload.templateId (js "模板ID")
  let imsis ← generateSequentialImsis payload.startImsi payload.ueCount
  let objectId ← MongoDriver.objectId templateId
  let document ← (templates objectId).elim (throw (js "所选模板不存在")) pure
  let template ← normalizeTemplate (templateOf document) defaultScscfUri
  let sqnStart ← parseSqn (some template.sqnStart)
  let sqnStep ← parsePositiveInteger (some template.sqnStep) 1 (js "sqnStep")
  let documents ← imsis.zipIdx.mapM fun numbered =>
    buildSubscriberDocumentFromTemplate numbered.1
      { template with sqnStart := js (toString (sqnStart + numbered.2 * sqnStep)) }
  return { template, documents }

/-- `bulkWrite` with a replacement for each document, and whether one of them has been refused. What
is refused does not keep the others from being written. -/
def bulkWrite (collection : SubscriberCollection) (replacements : List Document) :
    SubscriberCollection × Bool :=
  (MongoDriver.arrange replacements).foldl (fun state replacement =>
    match state.1.replaceOne replacement with
    | .error _ => (state.1, true)
    | .ok after => (after, state.2)) (collection, false)

/-- `POST /api/ue/batch`, which answers with the name of the template. -/
def postUeBatch (collection : SubscriberCollection) (payload : BatchPayload) :
    SubscriberCollection × Reply JsString :=
  match readBatch defaultScscfUri templates payload with
  | .error message => (collection, .failed 400 message)
  | .ok batch =>
      let written := bulkWrite collection batch.documents
      if written.2 then (written.1, .failed 400 MongoDriver.duplicateKey)
      else
        (written.1, .done (js "已使用模板 " ++ batch.template.name ++ js " 批量写入 " ++
          jsDecimal batch.documents.length ++ js " 个 UE") batch.template.name)

end

/-! ## Numbered IMSIs -/

/-- The IMSI of the UE with this number in a batch. -/
def imsiAt (start : JsString) (index : Nat) : JsString :=
  padStart (jsDecimal (bigInt start + index)) start.length

theorem toNat_of_mem_jsDecimal {value : Nat} {unit : UInt16} (h : unit ∈ jsDecimal value) :
    48 ≤ unit.toNat ∧ unit.toNat ≤ 57 := by
  obtain ⟨c, hc, rfl⟩ := List.mem_map.mp h
  have hrange := Char.isDigit_iff_toNat.mp (Nat.isDigit_of_mem_toDigits (by decide) (by decide) hc)
  rw [UInt16.toNat_ofNat']
  have hzero : '0'.toNat = 48 := rfl
  have hnine : '9'.toNat = 57 := rfl
  omega

theorem numeral_jsDecimal (value : Nat) : numeral 10 (digitsOf (jsDecimal value)) = value := by
  have hdigits : digitsOf (jsDecimal value) = (Nat.toDigits 10 value).map fun c =>
      c.toNat - 48 := by
    rw [digitsOf, jsDecimal, List.map_map]
    refine List.map_congr_left fun c hc => ?_
    have hrange := Char.isDigit_iff_toNat.mp
      (Nat.isDigit_of_mem_toDigits (by decide) (by decide) hc)
    have hnine : '9'.toNat = 57 := rfl
    change (UInt16.ofNat c.toNat).toNat - 48 = c.toNat - 48
    rw [UInt16.toNat_ofNat', Nat.mod_eq_of_lt (by omega)]
  have hfold : ∀ (cs : List Char) (n : Nat),
      (cs.map fun c => c.toNat - 48).foldl (fun n digit => 10 * n + digit) n =
        Nat.ofDigitChars 10 cs n := by
    intro cs
    induction cs with
    | nil => exact fun _ => rfl
    | cons c cs ih =>
        intro n
        rw [List.map_cons, List.foldl_cons, Nat.ofDigitChars_cons, ih]
        rfl
  rw [hdigits, numeral, hfold]
  exact Nat.ofDigitChars_ten_toDigits

theorem isDigits_imsiAt (start : JsString) (index : Nat) : IsDigits (imsiAt start index) where
  nonempty := by
    have hdecimal : jsDecimal (bigInt start + index) ≠ [] := by
      simp [jsDecimal, Nat.toDigits_ne_nil]
    exact List.append_ne_nil_of_right_ne_nil _ hdecimal
  chars unit hunit := by
    rw [UInt16.le_iff_toNat_le, UInt16.le_iff_toNat_le]
    obtain hunit | hunit := List.mem_append.mp hunit
    · rw [List.eq_of_mem_replicate hunit]
      decide
    · exact toNat_of_mem_jsDecimal hunit

theorem lt_ten_of_mem_digitsOf {text : JsString} (h : IsDigits text) :
    ∀ digit ∈ digitsOf text, digit < 10 := by
  intro digit hmem
  obtain ⟨unit, hunit, rfl⟩ := List.mem_map.mp hmem
  have hhigh := UInt16.le_iff_toNat_le.mp (h.chars unit hunit).2
  have hnine : (0x39 : UInt16).toNat = 57 := rfl
  omega

/-- Texts of digits are the same where the digits are. -/
theorem digitsOf_inj {text other : JsString} (h : ∀ unit ∈ text, 0x30 ≤ unit)
    (hother : ∀ unit ∈ other, 0x30 ≤ unit) : digitsOf text = digitsOf other ↔ text = other := by
  refine ⟨fun heq => ?_, congrArg digitsOf⟩
  have hback : ∀ {text : JsString}, (∀ unit ∈ text, 0x30 ≤ unit) →
      (digitsOf text).map (fun digit => UInt16.ofNat (digit + 0x30)) = text := by
    intro text h
    rw [digitsOf, List.map_map]
    conv_rhs => rw [← List.map_id text]
    refine List.map_congr_left fun unit hunit => ?_
    have hlow := UInt16.le_iff_toNat_le.mp (h unit hunit)
    have hzero : (0x30 : UInt16).toNat = 0x30 := rfl
    change UInt16.ofNat (unit.toNat - 0x30 + 0x30) = unit
    rw [Nat.sub_add_cancel (hzero ▸ hlow), UInt16.ofNat_toNat]
  rw [← hback h, heq, hback hother]

theorem numeral_imsiAt (start : JsString) (index : Nat) :
    numeral 10 (digitsOf (imsiAt start index)) = bigInt start + index := by
  have hzero : digitsOf (List.replicate (start.length - (jsDecimal (bigInt start + index)).length)
      0x30) = List.replicate (start.length - (jsDecimal (bigInt start + index)).length) 0 := by
    rw [digitsOf, List.map_replicate]
    rfl
  rw [imsiAt, padStart, digitsOf, List.map_append, ← digitsOf, ← digitsOf, hzero,
    numeral_replicate_zero_append, numeral_jsDecimal]

/-- An IMSI has the width of the first one as long as its number has no more digits. -/
theorem length_imsiAt_eq_iff {start : JsString} (h : start ≠ []) (index : Nat) :
    (imsiAt start index).length = start.length ↔ bigInt start + index < 10 ^ start.length := by
  rw [← Nat.length_toDigits_le_iff (by decide) (List.length_pos_iff.mpr h), imsiAt, padStart,
    List.length_append, List.length_replicate, jsDecimal, List.length_map]
  omega

/-- Different numbers give different IMSIs, of whatever width. -/
theorem imsiAt_inj {start : JsString} {i j : Nat} : imsiAt start i = imsiAt start j ↔ i = j := by
  refine ⟨fun heq => ?_, congrArg (imsiAt start)⟩
  have hvalue := numeral_imsiAt start i
  rw [heq, numeral_imsiAt] at hvalue
  omega

/-- The last digits of IMSIs of one width are apart where their numbers are, modulo a power of
ten. -/
theorem lastOf_imsiAt_eq_iff {start : JsString} {i j : Nat}
    (hlength : (imsiAt start i).length = (imsiAt start j).length) (count : Nat) :
    lastOf count (imsiAt start i) = lastOf count (imsiAt start j) ↔
      (bigInt start + i) % 10 ^ count = (bigInt start + j) % 10 ^ count := by
  have hlow : ∀ index, ∀ unit ∈ lastOf count (imsiAt start index), 0x30 ≤ unit :=
    fun index unit hmem =>
    ((isDigits_imsiAt start index).chars unit (List.mem_of_mem_drop hmem)).1
  rw [← digitsOf_inj (hlow i) (hlow j), digitsOf, digitsOf, ← lastOf_map, ← lastOf_map, ← digitsOf,
    ← digitsOf, lastOf_eq_iff (by decide) (lt_ten_of_mem_digitsOf (isDigits_imsiAt start i))
      (lt_ten_of_mem_digitsOf (isDigits_imsiAt start j))
      (by rw [digitsOf, digitsOf, List.length_map, List.length_map, hlength]),
    numeral_imsiAt, numeral_imsiAt]

/-! ## Numbered documents -/

def imsiText (document : Document) : Option JsString := (document.lookup "imsi").bind JsValue.asText

def impiText (document : Document) : Option JsString :=
  ((document.lookup "identities").bind (JsValue.field "impi")).bind JsValue.asText

def telText (document : Document) : Option JsString := (document.lookup "tel").bind JsValue.asText

theorem texts_of_document (fields : SubscriberFields) :
    imsiText fields.document = some fields.imsi ∧
      impiText fields.document = some (fields.imsi ++ js "@" ++ fields.realm) ∧
      telText fields.document = fields.tel.filter (· ≠ []) := by
  rw [SubscriberFields.document]
  cases htel : fields.tel with
  | none => exact ⟨rfl, rfl, rfl⟩
  | some tel =>
      by_cases hempty : tel = []
      · rw [hempty]
        exact ⟨rfl, rfl, rfl⟩
      · simp only [if_neg hempty, Option.filter_some, decide_eq_true hempty, if_true]
        exact ⟨rfl, rfl, rfl⟩

/-- Trailing digits are not trimmed. -/
theorem jsTrim_append_digits {digits : JsString} (h : IsDigits digits) (front : JsString) :
    jsTrim (front ++ digits) = front.dropWhile isJsSpace ++ digits := by
  have hspace := IsTelNumber.not_isJsSpace (.inl h)
  obtain ⟨first, rest, hcons⟩ := List.exists_cons_of_ne_nil h.nonempty
  obtain ⟨last, init, hsnoc⟩ := List.exists_cons_of_ne_nil (List.reverse_ne_nil_iff.mpr h.nonempty)
  have hfirst : isJsSpace first = false := hspace first (hcons ▸ List.mem_cons_self)
  have hlast : isJsSpace last = false :=
    hspace last (List.mem_reverse.mp (hsnoc ▸ List.mem_cons_self))
  have hdrop : (front ++ digits).dropWhile isJsSpace = front.dropWhile isJsSpace ++ digits := by
    rw [hcons]
    exact Cxx.dropWhile_append_cons hfirst _ _
  rw [jsTrim, hdrop, List.reverse_append, hsnoc, List.cons_append,
    List.dropWhile_cons_of_neg (by rw [hlast]; exact Bool.false_ne_true),
      ← List.cons_append, ← hsnoc,
    ← List.reverse_append, List.reverse_reverse]

/-- The document of the UE with this number. -/
structure Numbered (start : JsString) (template : Template) (index : Nat) (document : Document) :
    Prop where
  imsi : imsiText document = some (imsiAt start index)
  impi : impiText document = some (imsiAt start index ++ js "@" ++ jsTrim template.realm)
  tel : telText document =
    if template.telPrefix ≠ [] ∧ 0 < template.telFromImsiDigits then
      some (template.telPrefix.dropWhile isJsSpace ++
        lastOf template.telFromImsiDigits (imsiAt start index))
    else none

theorem isDigits_lastOf {text : JsString} (h : IsDigits text) {count : Nat} (hcount : 0 < count) :
    IsDigits (lastOf count text) where
  nonempty := by
    have hpos := List.length_pos_iff.mpr h.nonempty
    rw [← List.length_pos_iff, length_lastOf]
    omega
  chars unit hunit := h.chars unit (List.mem_of_mem_drop hunit)

theorem numbered_of_build {start : JsString} {template : Template} {index : Nat} {sqn : JsString}
    {document : Document} (h : buildSubscriberDocumentFromTemplate (imsiAt start index)
      { template with sqnStart := sqn } = .ok document) : Numbered start template index
        document := by
  have hdigits := isDigits_imsiAt start index
  rw [buildSubscriberDocumentFromTemplate, buildSubscriberDocument] at h
  cases hread : readFields (Template.payload { template with sqnStart := sqn } (imsiAt start index))
      template.assignedScscf with
  | error message =>
      rw [hread] at h
      cases h
  | ok fields =>
      rw [hread] at h
      cases h
      obtain ⟨himsi, hrealm, htel⟩ := texts_of_readFields hread
      obtain ⟨hdocImsi, hdocImpi, hdocTel⟩ := texts_of_document fields
      have himsi : imsiAt start index = fields.imsi := by
        rw [← IsTelNumber.jsTrim_eq (.inl hdigits)]
        exact Option.some.inj himsi
      have hrealm : jsTrim template.realm = fields.realm := Option.some.inj hrealm
      refine ⟨himsi ▸ hdocImsi, himsi ▸ hrealm ▸ hdocImpi, ?_⟩
      rw [hdocTel, ← htel]
      by_cases hmade : template.telPrefix ≠ [] ∧ 0 < template.telFromImsiDigits
      · have hlast := isDigits_lastOf hdigits hmade.2
        simp only [Template.payload, if_pos hmade, Option.map_some, jsTrim_append_digits hlast]
        rw [Option.filter_some, if_pos]
        exact decide_eq_true (List.append_ne_nil_of_right_ne_nil _ hlast.nonempty)
      · simp only [Template.payload, if_neg hmade]
        rfl

/-! ## The documents of a batch -/

namespace BatchPayload

/-- The first IMSI of a request. -/
def start (payload : BatchPayload) : JsString := jsTrim (payload.startImsi.getD [])

/-- The number of UEs in a request. -/
def count (payload : BatchPayload) : Nat :=
  ((parseInt (jsTrim (payload.ueCount.getD [])) 10).getD 0).toNat

end BatchPayload

theorem parsePositiveInteger_eq_ok {rawValue : Option JsString} {field : JsString} {n : Nat}
    (h : parsePositiveInteger rawValue 0 field = .ok n) :
    n = ((parseInt (jsTrim (rawValue.getD [])) 10).getD 0).toNat := by
  rw [parsePositiveInteger] at h
  split at h
  · rename_i hempty
    cases h
    rw [hempty]
    rfl
  · split at h
    · cases h
    · rename_i hparsed
      split at h
      · cases h
      · cases h
        rw [hparsed]
        rfl

theorem generateSequentialImsis_eq_ok {payload : BatchPayload} {imsis : List JsString}
    (h : generateSequentialImsis payload.startImsi payload.ueCount = .ok imsis) :
    IsDigits payload.start ∧ 0 < payload.count ∧
      imsis = (List.range payload.count).map (imsiAt payload.start) := by
  obtain ⟨start, hstart, h⟩ := exists_of_bind_eq_ok h
  obtain ⟨htrim, -⟩ := ensureNonEmpty_eq_ok hstart
  have hstart : start = payload.start := by
    rw [BatchPayload.start]
    cases hraw : payload.startImsi with
    | none =>
        rw [hraw] at htrim
        cases htrim
    | some raw =>
        rw [hraw] at htrim
        exact (Option.some.inj htrim).symm
  subst hstart
  split at h
  · cases h
  · rename_i hdigits
    obtain ⟨count, hcount, h⟩ := exists_of_bind_eq_ok h
    have hcount : count = payload.count := parsePositiveInteger_eq_ok hcount
    subst hcount
    split at h
    · cases h
    · rename_i hpos
      split at h
      · cases h
      · cases h
        exact ⟨not_not.mp hdigits, Nat.pos_of_ne_zero hpos, rfl⟩

section

variable [MongoDriver] {defaultScscfUri : JsString} {templates : ObjectId → Option Document}
variable {payload : BatchPayload} {batch : Batch}

/-- The documents of a batch are numbered from the first IMSI on. -/
theorem numbered_of_readBatch (h : readBatch defaultScscfUri templates payload = .ok batch) :
    IsDigits payload.start ∧ 0 < payload.count ∧ batch.documents.length = payload.count ∧
      ∀ (i : Nat) (hi : i < batch.documents.length),
        Numbered payload.start batch.template i batch.documents[i] := by
  obtain ⟨templateId, -, h⟩ := exists_of_bind_eq_ok h
  obtain ⟨imsis, himsis, h⟩ := exists_of_bind_eq_ok h
  obtain ⟨objectId, -, h⟩ := exists_of_bind_eq_ok h
  obtain ⟨document, -, h⟩ := exists_of_bind_eq_ok h
  obtain ⟨template, -, h⟩ := exists_of_bind_eq_ok h
  obtain ⟨sqnStart, -, h⟩ := exists_of_bind_eq_ok h
  obtain ⟨sqnStep, -, h⟩ := exists_of_bind_eq_ok h
  obtain ⟨documents, hdocuments, h⟩ := exists_of_bind_eq_ok h
  cases h
  obtain ⟨hdigits, hpos, rfl⟩ := generateSequentialImsis_eq_ok himsis
  obtain ⟨hlength, hget⟩ := getElem_of_mapM hdocuments
  rw [List.length_zipIdx, List.length_map, List.length_range] at hlength
  refine ⟨hdigits, hpos, hlength, fun i hi => ?_⟩
  have hzip : i < ((List.range payload.count).map (imsiAt payload.start)).zipIdx.length := by
    rw [List.length_zipIdx, List.length_map, List.length_range, ← hlength]
    exact hi
  have hbuild := hget i hzip hi
  rw [List.getElem_zipIdx, List.getElem_map, List.getElem_range] at hbuild
  exact numbered_of_build hbuild

/-! ## Distinct subscribers -/

/-- No two documents have an IMSI, an IMPI or a telephone number in common. -/
structure DistinctSubscribers (documents : List Document) : Prop where
  imsi : documents.Pairwise fun a b => imsiText a ≠ imsiText b
  impi : documents.Pairwise fun a b => impiText a ≠ impiText b
  tel : documents.Pairwise fun a b => ∀ tel, telText a = some tel → telText b ≠ some tel

/-- Every IMSI has the width of the first one. -/
def SameWidth (start : JsString) (documents : List Document) : Prop :=
  ∀ document ∈ documents, ∀ imsi, imsiText document = some imsi → imsi.length = start.length

/-- The numbers stay within the width of the first IMSI, and the digits that telephone numbers take
from them are enough for the number of UEs. -/
def Batch.Fits (payload : BatchPayload) (template : Template) : Prop :=
  bigInt payload.start + payload.count ≤ 10 ^ payload.start.length ∧
    (template.telPrefix = [] ∨ template.telFromImsiDigits = 0 ∨
      payload.count ≤ 10 ^ template.telFromImsiDigits)

section

variable {start : JsString} {template : Template} {documents : List Document}
variable (h : ∀ (i : Nat) (hi : i < documents.length), Numbered start template i documents[i])

include h

omit [MongoDriver] in
theorem imsi_distinct : documents.Pairwise fun a b => imsiText a ≠ imsiText b := by
  rw [List.pairwise_iff_getElem]
  intro i j hi hj hij heq
  rw [(h i hi).imsi, (h j hj).imsi, Option.some.injEq, imsiAt_inj] at heq
  omega

omit [MongoDriver] in
theorem impi_distinct : documents.Pairwise fun a b => impiText a ≠ impiText b := by
  rw [List.pairwise_iff_getElem]
  intro i j hi hj hij heq
  rw [(h i hi).impi, (h j hj).impi, Option.some.injEq, List.append_left_inj, List.append_left_inj,
    imsiAt_inj] at heq
  omega

omit [MongoDriver] in
theorem sameWidth_iff (hstart : start ≠ []) (hpos : 0 < documents.length) :
    SameWidth start documents ↔ bigInt start + documents.length ≤ 10 ^ start.length := by
  constructor
  · intro hwidth
    have hi : documents.length - 1 < documents.length := Nat.sub_lt hpos Nat.one_pos
    have hlast := hwidth _ (List.getElem_mem hi) _ (h _ hi).imsi
    rw [length_imsiAt_eq_iff hstart] at hlast
    omega
  · intro hle document hmem imsi himsi
    obtain ⟨i, hi, rfl⟩ := List.mem_iff_getElem.mp hmem
    rw [(h i hi).imsi, Option.some.injEq] at himsi
    rw [← himsi, length_imsiAt_eq_iff hstart]
    omega

omit [MongoDriver] in
/-- The digits at the end of numbers of one width tell no more of them apart than their powers. -/
theorem tel_distinct_iff (hstart : start ≠ [])
    (hwidth : bigInt start + documents.length ≤ 10 ^ start.length) :
    (documents.Pairwise fun a b => ∀ tel, telText a = some tel → telText b ≠ some tel) ↔
      template.telPrefix = [] ∨ template.telFromImsiDigits = 0 ∨
        documents.length ≤ 10 ^ template.telFromImsiDigits := by
  rw [List.pairwise_iff_getElem]
  by_cases hmade : template.telPrefix ≠ [] ∧ 0 < template.telFromImsiDigits
  · have hdigits : template.telPrefix = [] ∨ template.telFromImsiDigits = 0 ∨
        documents.length ≤ 10 ^ template.telFromImsiDigits ↔
          documents.length ≤ 10 ^ template.telFromImsiDigits := by
      have hne := hmade.2.ne'
      simp only [hmade.1, hne, false_or]
    rw [hdigits, ← distinct_mod_iff (Nat.pow_pos (by decide)) (bigInt start)]
    have hlength : ∀ i < documents.length, (imsiAt start i).length = start.length := by
      intro i hi
      rw [length_imsiAt_eq_iff hstart]
      omega
    have happart : ∀ i j (hi : i < documents.length) (hj : j < documents.length),
        (∀ tel, telText documents[i] = some tel → telText documents[j] ≠ some tel) ↔
          (bigInt start + i) % 10 ^ template.telFromImsiDigits ≠
            (bigInt start + j) % 10 ^ template.telFromImsiDigits := by
      intro i j hi hj
      have hsuffix := lastOf_imsiAt_eq_iff ((hlength i hi).trans (hlength j hj).symm)
        template.telFromImsiDigits
      rw [(h i hi).tel, (h j hj).tel, if_pos hmade, if_pos hmade, ne_eq, ← hsuffix]
      constructor
      · intro hne heq
        exact hne _ rfl (by rw [heq])
      · intro hne tel htel heq
        rw [← htel, Option.some.injEq, List.append_right_inj] at heq
        exact hne heq.symm
    exact ⟨fun hall i j hij hj => (happart i j (hij.trans hj) hj).mp
      (hall i j (hij.trans hj) hj hij),
      fun hall i j hi hj hij => (happart i j hi hj).mpr (hall i j hij hj)⟩
  · refine iff_of_true (fun i j hi hj hij tel htel => ?_) ?_
    · rw [(h i hi).tel, if_neg hmade] at htel
      cases htel
    · by_cases hempty : template.telPrefix = []
      · exact .inl hempty
      · exact .inr (.inl (Nat.eq_zero_of_not_pos fun hpos => hmade ⟨hempty, hpos⟩))

end

/-- The template that a request names, as the batch reads it. -/
def UsesTemplate (defaultScscfUri : JsString) (templates : ObjectId → Option Document)
    (payload : BatchPayload) (template : Template) : Prop :=
  ∃ id objectId document, ensureNonEmpty payload.templateId (js "模板ID") = .ok id ∧
    MongoDriver.objectId id = .ok objectId ∧ templates objectId = some document ∧
    normalizeTemplate (templateOf document) defaultScscfUri = .ok template

theorem UsesTemplate.eq_of_readBatch {template : Template}
    (h : UsesTemplate defaultScscfUri templates payload template)
    (hread : readBatch defaultScscfUri templates payload = .ok batch) :
    batch.template = template := by
  obtain ⟨id, objectId, document, hid, hobject, hdocument, htemplate⟩ := h
  obtain ⟨id', hid', hread⟩ := exists_of_bind_eq_ok hread
  obtain ⟨imsis, -, hread⟩ := exists_of_bind_eq_ok hread
  obtain ⟨objectId', hobject', hread⟩ := exists_of_bind_eq_ok hread
  obtain ⟨document', hdocument', hread⟩ := exists_of_bind_eq_ok hread
  obtain ⟨template', htemplate', hread⟩ := exists_of_bind_eq_ok hread
  obtain ⟨sqnStart, -, hread⟩ := exists_of_bind_eq_ok hread
  obtain ⟨sqnStep, -, hread⟩ := exists_of_bind_eq_ok hread
  obtain ⟨documents, -, hread⟩ := exists_of_bind_eq_ok hread
  cases hread
  cases hid.symm.trans hid'
  cases hobject.symm.trans hobject'
  rw [hdocument] at hdocument'
  cases hdocument'
  exact Except.ok.inj (htemplate'.symm.trans htemplate)

end

/-- The documents of a batch are those of distinct subscribers, with IMSIs of one width, exactly if
the numbers stay within it and the digits for telephone numbers are enough. What cannot be read is
not written. -/
theorem postUeBatch_distinct_iff [MongoDriver] (defaultScscfUri : JsString)
    (templates : ObjectId → Option Document) (collection : SubscriberCollection)
    (payload : BatchPayload) :
    (∀ message, readBatch defaultScscfUri templates payload = .error message →
      postUeBatch defaultScscfUri templates collection payload =
        (collection, .failed 400 message)) ∧
    ∀ template batch, UsesTemplate defaultScscfUri templates payload template →
      readBatch defaultScscfUri templates payload = .ok batch →
        (DistinctSubscribers batch.documents ∧ SameWidth payload.start batch.documents ↔
          Batch.Fits payload template) := by
  constructor
  · intro message hread
    rw [postUeBatch, hread]
  · intro template batch huses hread
    obtain ⟨hdigits, hpos, hlength, hnumbered⟩ := numbered_of_readBatch hread
    rw [huses.eq_of_readBatch hread] at hnumbered
    have hwidth := sameWidth_iff hnumbered hdigits.nonempty (hlength ▸ hpos)
    have htel := tel_distinct_iff hnumbered hdigits.nonempty
    rw [hlength] at hwidth htel
    constructor
    · rintro ⟨hdistinct, hsame⟩
      exact ⟨hwidth.mp hsame, (htel (hwidth.mp hsame)).mp hdistinct.tel⟩
    · rintro ⟨hfits, hdigits⟩
      exact ⟨⟨imsi_distinct hnumbered, impi_distinct hnumbered, (htel hfits).mpr hdigits⟩,
        hwidth.mpr hfits⟩

/-! ### Batches of a template that takes one digit for telephone numbers -/

def oneDigitDocument : Document :=
  [("name", .string (js "t")), ("realm", .string (js "a")), ("password", .string (js "b")),
    ("ki", .string (List.replicate 32 0x30)), ("operatorCode", .string (List.replicate 32 0x30)),
    ("telPrefix", .string (js "+")), ("telFromImsiDigits", .number 1)]

def oneDigitTemplate : Template where
  name := js "t"
  realm := js "a"
  password := js "b"
  ki := List.replicate 32 0x30
  operatorCodeType := js "opc"
  operatorCode := List.replicate 32 0x30
  amf := js "8000"
  assignedScscf := js "sip:s"
  telPrefix := js "+"
  telFromImsiDigits := 1
  sqnStart := js "0"
  sqnStep := js "1"

def oneDigitBatch (startImsi ueCount : String) : BatchPayload where
  templateId := some carolId
  startImsi := some (js startImsi)
  ueCount := some (js ueCount)

def noSubscribers : SubscriberCollection := ⟨[], .nil⟩

theorem oneDigit_used (startImsi ueCount : String) :
    @UsesTemplate countingDriver (js "sip:s") (fun _ => some oneDigitDocument)
      (oneDigitBatch startImsi ueCount) oneDigitTemplate := by
  have hid : ensureNonEmpty (some carolId) (js "模板ID") = .ok carolId := by decide +kernel
  exact ⟨carolId, 1, oneDigitDocument, hid, by decide +kernel, rfl, by decide +kernel⟩

theorem postUeBatch_distinct_iff_ten :
    ∃ batch, @readBatch countingDriver (js "sip:s") (fun _ => some oneDigitDocument)
        (oneDigitBatch "10" "10") = .ok batch ∧
      DistinctSubscribers batch.documents ∧ SameWidth (js "10") batch.documents := by
  let _ : MongoDriver := countingDriver
  obtain ⟨batch, hread⟩ := exists_of_isOk
    (x := readBatch (js "sip:s") (fun _ => some oneDigitDocument)
    (oneDigitBatch "10" "10")) (by decide +kernel)
  have hstart : (oneDigitBatch "10" "10").start = js "10" := by decide +kernel
  refine ⟨batch, hread, ?_⟩
  rw [← hstart]
  exact ((@postUeBatch_distinct_iff countingDriver (js "sip:s") (fun _ => some oneDigitDocument)
    noSubscribers (oneDigitBatch "10" "10")).2 oneDigitTemplate batch (oneDigit_used "10" "10")
    hread).mpr ⟨by decide +kernel, .inr (.inr (by decide +kernel))⟩

/-- Eleven UEs are written with ten telephone numbers, and the width of the first IMSI is left
behind. -/
theorem batch_is_not_checked :
    (@postUeBatch countingDriver (js "sip:s") (fun _ => some oneDigitDocument) noSubscribers
        (oneDigitBatch "10" "11")).1.documents.length = 11 ∧
      (∀ batch, @readBatch countingDriver (js "sip:s") (fun _ => some oneDigitDocument)
        (oneDigitBatch "10" "11") = .ok batch → ¬ DistinctSubscribers batch.documents) ∧
    (@postUeBatch countingDriver (js "sip:s") (fun _ => some oneDigitDocument) noSubscribers
        (oneDigitBatch "9" "2")).1.documents.length = 2 ∧
      ∀ batch, @readBatch countingDriver (js "sip:s") (fun _ => some oneDigitDocument)
        (oneDigitBatch "9" "2") = .ok batch → ¬ SameWidth (js "9") batch.documents := by
  let _ : MongoDriver := countingDriver
  refine ⟨by decide +kernel, fun batch hread hdistinct => ?_, by decide +kernel,
    fun batch hread hsame => ?_⟩
  · obtain ⟨hdigits, hpos, hlength, hnumbered⟩ := numbered_of_readBatch hread
    rw [(oneDigit_used "10" "11").eq_of_readBatch hread] at hnumbered
    have hcount : (oneDigitBatch "10" "11").count = 11 := by decide +kernel
    rw [hcount] at hlength
    have htel := (tel_distinct_iff hnumbered hdigits.nonempty
      (hlength ▸ (by decide +kernel))).mp hdistinct.tel
    rw [hlength] at htel
    exact absurd htel (by decide +kernel)
  · obtain ⟨hdigits, hpos, hlength, hnumbered⟩ := numbered_of_readBatch hread
    have hstart : (oneDigitBatch "9" "2").start = js "9" := by decide +kernel
    have hcount : (oneDigitBatch "9" "2").count = 2 := by decide +kernel
    have hwidth := (sameWidth_iff hnumbered hdigits.nonempty (hlength ▸ hpos)).mp (hstart ▸ hsame)
    rw [hlength, hcount, hstart] at hwidth
    exact absurd hwidth (by decide +kernel)

end SimIms.WebUi
