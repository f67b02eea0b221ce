import SimIms.Sip.PlainIdentities

/-!
# Digest credentials, printed and read

A client prints its credentials as pairs of a name and a value, in any order, with values that may
be quoted strings. The parser cuts the header at every comma before it looks at the quotation marks,
so a quoted value is read back exactly where it holds no comma.
-/

namespace SimIms.Sip

open Cxx

theorem mem_of_mem_trimQuotes {c : UInt8} {s : Bytes} (h : c ∈ trimQuotes s) : c ∈ s := by
  rw [trimQuotes] at h
  split at h
  · exact List.mem_of_mem_drop (List.mem_of_mem_take h)
  · exact h

/-! ## Lines -/

theorem not_mem_of_mem_getlines {delimiter : UInt8} {s line : Bytes}
    (h : line ∈ getlines delimiter s) : delimiter ∉ line := by
  induction s generalizing line with
  | nil => cases h
  | cons c s ih =>
      rw [getlines] at h
      split at h
      · obtain rfl | h := List.mem_cons.mp h
        · exact List.not_mem_nil
        · exact ih h
      · rename_i hne
        split at h
        · rw [List.mem_singleton.mp h, List.mem_singleton]
          exact Ne.symm hne
        · rename_i first lines hlines
          rw [hlines] at ih
          obtain rfl | h := List.mem_cons.mp h
          · rw [List.mem_cons, not_or]
            exact ⟨Ne.symm hne, ih List.mem_cons_self⟩
          · exact ih (List.mem_cons_of_mem first h)

theorem getlines_singleton {delimiter : UInt8} {line : Bytes} (hline : delimiter ∉ line)
    (hne : line ≠ []) : getlines delimiter line = [line] := by
  induction line with
  | nil => exact (hne rfl).elim
  | cons c line ih =>
      rw [List.mem_cons, not_or] at hline
      rw [getlines, if_neg (Ne.symm hline.1)]
      cases line with
      | nil => rfl
      | cons d line => rw [ih hline.2 (List.cons_ne_nil d line)]

/-- Lines that are joined by the delimiter come back, where the last one is not empty. -/
theorem getlines_intercalate {delimiter : UInt8} {lines : List Bytes}
    (h : ∀ line ∈ lines, delimiter ∉ line ∧ line ≠ []) :
    getlines delimiter ([delimiter].intercalate lines) = lines := by
  induction lines with
  | nil => rfl
  | cons line lines ih =>
      rw [List.forall_mem_cons] at h
      cases lines with
      | nil =>
          rw [List.intercalate_singleton]
          exact getlines_singleton h.1.1 h.1.2
      | cons next lines =>
          rw [List.intercalate_cons_cons, List.append_assoc, List.singleton_append,
            getlines_append h.1.1, ih h.2]

/-! ## Fields -/

inductive DigestField where
  | username
  | realm
  | nonce
  | uri
  | response
  | algorithm
  | qop
  | nc
  | cnonce
deriving DecidableEq, Repr

namespace DigestField

def name : DigestField → Bytes
  | username => bytes "username"
  | realm => bytes "realm"
  | nonce => bytes "nonce"
  | uri => bytes "uri"
  | response => bytes "response"
  | algorithm => bytes "algorithm"
  | qop => bytes "qop"
  | nc => bytes "nc"
  | cnonce => bytes "cnonce"

def get (fields : DigestAuthFields) : DigestField → Bytes
  | username => fields.username
  | realm => fields.realm
  | nonce => fields.nonce
  | uri => fields.uri
  | response => fields.response
  | algorithm => fields.algorithm
  | qop => fields.qop
  | nc => fields.nc
  | cnonce => fields.cnonce

def put (fields : DigestAuthFields) (value : Bytes) : DigestField → DigestAuthFields
  | username => { fields with username := value }
  | realm => { fields with realm := value }
  | nonce => { fields with nonce := value }
  | uri => { fields with uri := value }
  | response => { fields with response := value }
  | algorithm => { fields with algorithm := value }
  | qop => { fields with qop := value }
  | nc => { fields with nc := value }
  | cnonce => { fields with cnonce := value }

def all : List DigestField :=
  [username, realm, nonce, uri, response, algorithm, qop, nc, cnonce]

theorem mem_all (field : DigestField) : field ∈ all := by
  cases field <;> decide

variable {fields fields' : DigestAuthFields} {value : Bytes}

theorem get_put (field other : DigestField) :
    other.get (field.put fields value) = if other = field then value else other.get fields := by
  cases field <;> cases other <;> rfl

theorem fields_ext (h : ∀ field : DigestField, field.get fields = field.get fields') :
    fields = fields' := by
  obtain ⟨_, _, _, _, _, _, _, _, _⟩ := fields
  obtain ⟨_, _, _, _, _, _, _, _, _⟩ := fields'
  rw [DigestAuthFields.mk.injEq]
  exact ⟨h .username, h .realm, h .nonce, h .response, h .uri, h .algorithm, h .qop, h .nc,
    h .cnonce⟩

theorem set_name (field : DigestField) : fields.set field.name value = field.put fields value := by
  cases field <;> rfl

theorem mem_name (field : DigestField) :
    ∀ c ∈ field.name, isSpace c = false ∧ c ≠ ','.toUInt8 ∧ c ≠ '='.toUInt8 := by
  cases field <;> decide +kernel

theorem lowercase_name (field : DigestField) : lowercase field.name = field.name := by
  cases field <;> decide

theorem name_ne_nil (field : DigestField) : field.name ≠ [] := by
  cases field <;> decide

/-- A name sets the field of this name, or none. -/
theorem set_cases (key : Bytes) :
    (∃ field : DigestField, fields.set key value = field.put fields value) ∨
      fields.set key value = fields := by
  rw [DigestAuthFields.set]
  split
  · exact .inl ⟨.username, rfl⟩
  split
  · exact .inl ⟨.realm, rfl⟩
  split
  · exact .inl ⟨.nonce, rfl⟩
  split
  · exact .inl ⟨.response, rfl⟩
  split
  · exact .inl ⟨.uri, rfl⟩
  split
  · exact .inl ⟨.algorithm, rfl⟩
  split
  · exact .inl ⟨.qop, rfl⟩
  split
  · exact .inl ⟨.nc, rfl⟩
  split
  · exact .inl ⟨.cnonce, rfl⟩
  exact .inr rfl

end DigestField

/-- The values of the credentials hold no comma. -/
def CommaFree (fields : DigestAuthFields) : Prop :=
  ∀ field : DigestField, ','.toUInt8 ∉ field.get fields

theorem CommaFree.readToken {fields : DigestAuthFields} {token : Bytes} (h : CommaFree fields)
    (htoken : ','.toUInt8 ∉ token) : CommaFree (fields.readToken token) := by
  rw [DigestAuthFields.readToken]
  split
  · exact h
  · rename_i eq _
    intro field hmem
    obtain ⟨other, hset⟩ | hset := DigestField.set_cases
      (lowercase (trim ((trim token).take eq)))
    · rw [hset, DigestField.get_put] at hmem
      split at hmem
      · exact htoken (mem_of_mem_trim (List.mem_of_mem_drop
          (mem_of_mem_trim (mem_of_mem_trimQuotes hmem))))
      · exact h field hmem
    · rw [hset] at hmem
      exact h field hmem

/-- Whatever the header is, no value that is read off it holds a comma. -/
theorem commaFree_of_parseDigestAuthorization {header : Bytes} {fields : DigestAuthFields}
    (h : parseDigestAuthorization header = .ok fields) : CommaFree fields := by
  have hfold : ∀ (tokens : List Bytes) (fields : DigestAuthFields), CommaFree fields →
      (∀ token ∈ tokens, ','.toUInt8 ∉ token) →
        CommaFree (tokens.foldl DigestAuthFields.readToken fields) := by
    intro tokens
    induction tokens with
    | nil => exact fun fields hfields _ => hfields
    | cons token tokens ih =>
        intro fields hfields htokens
        rw [List.forall_mem_cons] at htokens
        exact ih _ (hfields.readToken htokens.1) htokens.2
  have hempty : CommaFree {} := by
    intro field
    cases field <;> exact List.not_mem_nil
  rw [parseDigestAuthorization] at h
  split at h
  · cases h
  · simp only at h
    split at h
    · cases h
    · cases h
      exact hfold _ _ hempty fun token htoken => not_mem_of_mem_getlines htoken

/-! ## Printing -/

def isTokenChar (c : UInt8) : Bool :=
  isDigit c || ('A'.toUInt8 ≤ c && c ≤ 'Z'.toUInt8) || ('a'.toUInt8 ≤ c && c ≤ 'z'.toUInt8) ||
    c ∈ bytes "-.!%*_+\x60'~"

/-- A space or a tab. -/
def isBlank (c : UInt8) : Bool := c == ' '.toUInt8 || c == '\t'.toUInt8

theorem plain_of_isTokenChar :
    ∀ {c : UInt8}, isTokenChar c = true →
      isSpace c = false ∧ c ≠ ','.toUInt8 ∧ c ≠ '"'.toUInt8 :=
  fun {c} => forall_byte (P := fun c => isTokenChar c = true →
    isSpace c = false ∧ c ≠ ','.toUInt8 ∧ c ≠ '"'.toUInt8) (by decide +kernel) c

theorem isSpace_of_isBlank :
    ∀ {c : UInt8}, isBlank c = true → isSpace c = true ∧ c ≠ ','.toUInt8 :=
  fun {c} => forall_byte (P := fun c => isBlank c = true → isSpace c = true ∧ c ≠ ','.toUInt8)
    (by decide +kernel) c

/-- A pair of a name and a value as it is printed, with the blanks around it. -/
structure PrintedField where
  field : DigestField
  value : Bytes
  quoted : Bool
  before : Bytes := []
  after : Bytes := []
  content :
    if quoted then '"'.toUInt8 ∉ value ∧ '\\'.toUInt8 ∉ value
    else value ≠ [] ∧ ∀ c ∈ value, isTokenChar c = true
  blanks : ∀ c ∈ before ++ after, isBlank c = true

namespace PrintedField

def valueText (printed : PrintedField) : Bytes :=
  if printed.quoted then bytes "\"" ++ printed.value ++ bytes "\"" else printed.value

def text (printed : PrintedField) : Bytes :=
  printed.before ++ (printed.field.name ++ '='.toUInt8 :: printed.valueText) ++ printed.after

/-- A value that begins and ends without a blank, and in which the quotation marks are those of the
printing. -/
structure ReadsAs (text value : Bytes) : Prop where
  first : ∃ c rest, text = c :: rest ∧ isSpace c = false
  last : ∃ c front, text = front ++ [c] ∧ isSpace c = false
  trimQuotes : trimQuotes text = value

theorem readsAs_quoted (value : Bytes) : ReadsAs (bytes "\"" ++ value ++ bytes "\"") value where
  first := ⟨'"'.toUInt8, value ++ bytes "\"", rfl, by decide⟩
  last := ⟨'"'.toUInt8, bytes "\"" ++ value, rfl, by decide⟩
  trimQuotes := by
    have hlength : (bytes "\"" ++ value ++ bytes "\"").length = value.length + 2 := by
      rw [List.length_append, List.length_append, Nat.add_right_comm, Nat.add_comm]
      rfl
    have hsubstr : substr (bytes "\"" ++ value ++ bytes "\"") 1 value.length = value :=
      At.substr_eq ⟨bytes "\"", bytes "\"", List.append_assoc _ _ _, rfl⟩
    rw [Sip.trimQuotes, hlength, if_pos, Nat.add_sub_cancel, hsubstr]
    exact ⟨Nat.le_add_left 2 _, rfl, List.getLast?_concat⟩

theorem readsAs_token {value : Bytes} (hne : value ≠ []) (h : ∀ c ∈ value, isTokenChar c = true) :
    ReadsAs value value where
  first := by
    obtain ⟨c, rest, rfl⟩ := List.exists_cons_of_ne_nil hne
    exact ⟨c, rest, rfl, (plain_of_isTokenChar (h c List.mem_cons_self)).1⟩
  last := by
    refine ⟨value.getLast hne, value.dropLast, (List.dropLast_append_getLast hne).symm, ?_⟩
    exact (plain_of_isTokenChar (h _ (List.getLast_mem hne))).1
  trimQuotes := by
    rw [Sip.trimQuotes, if_neg]
    rintro ⟨-, hhead, -⟩
    exact (plain_of_isTokenChar (h _ (List.mem_of_head? hhead))).2.2 rfl

variable {printed : PrintedField}

theorem readsAs_valueText (printed : PrintedField) :
    ReadsAs printed.valueText printed.value := by
  have hcontent := printed.content
  rw [valueText]
  split
  · exact readsAs_quoted printed.value
  · rename_i hquoted
    rw [if_neg hquoted] at hcontent
    exact readsAs_token hcontent.1 hcontent.2

/-- The text holds a comma only in a value that is a quoted string. -/
theorem not_mem_comma_text (h : printed.quoted = true → ','.toUInt8 ∉ printed.value) :
    ','.toUInt8 ∉ printed.text := by
  have hvalue : ','.toUInt8 ∉ printed.valueText := by
    have hcontent := printed.content
    rw [valueText]
    split
    · rename_i hquoted
      rw [List.mem_append, List.mem_append, not_or, not_or]
      exact ⟨⟨by decide, h hquoted⟩, by decide⟩
    · rename_i hquoted
      rw [if_neg hquoted] at hcontent
      exact fun hmem => (plain_of_isTokenChar (hcontent.2 _ hmem)).2.1 rfl
  have hblank : ','.toUInt8 ∉ printed.before ++ printed.after :=
    fun hmem => (isSpace_of_isBlank (printed.blanks _ hmem)).2 rfl
  rw [List.mem_append, not_or] at hblank
  rw [text, List.mem_append, List.mem_append, List.mem_append, List.mem_cons, not_or,
    not_or, not_or, not_or]
  exact ⟨⟨hblank.1, fun hmem => (printed.field.mem_name _ hmem).2.1 rfl, by decide, hvalue⟩,
    hblank.2⟩

theorem text_ne_nil (printed : PrintedField) : printed.text ≠ [] := by
  rw [text]
  exact List.append_ne_nil_of_left_ne_nil (List.append_ne_nil_of_right_ne_nil _
    (List.append_ne_nil_of_left_ne_nil printed.field.name_ne_nil _)) _

theorem trim_text (printed : PrintedField) :
    trim printed.text = printed.field.name ++ '='.toUInt8 :: printed.valueText := by
  obtain ⟨last, front, hvalue, hlast⟩ := (readsAs_valueText printed).last
  obtain ⟨first, rest, hname⟩ := List.exists_cons_of_ne_nil printed.field.name_ne_nil
  refine trim_append (fun c hc => ?_) (fun c hc => ?_) ?_ ?_
  · exact (isSpace_of_isBlank (printed.blanks c (List.mem_append_left _ hc))).1
  · exact (isSpace_of_isBlank (printed.blanks c (List.mem_append_right _ hc))).1
  · refine ⟨first, rest ++ '='.toUInt8 :: printed.valueText, by rw [hname, List.cons_append], ?_⟩
    exact (printed.field.mem_name first (by rw [hname]; exact List.mem_cons_self)).1
  · refine ⟨last, printed.field.name ++ '='.toUInt8 :: front, ?_, hlast⟩
    rw [hvalue, List.append_assoc, List.cons_append]

/-- One piece of the header puts the value into its field. -/
theorem readToken_text (fields : DigestAuthFields) (printed : PrintedField) :
    fields.readToken printed.text = printed.field.put fields printed.value := by
  have hreads := readsAs_valueText printed
  have hfind : find (printed.field.name ++ '='.toUInt8 :: printed.valueText) '='.toUInt8 0 =
      some printed.field.name.length :=
    find_append fun hmem => (printed.field.mem_name _ hmem).2.2 rfl
  have hname : trim printed.field.name = printed.field.name :=
    trim_eq_self fun c hc => (printed.field.mem_name c hc).1
  have hvalue : trim printed.valueText = printed.valueText := by
    have htrim : trim ([] ++ printed.valueText ++ []) = printed.valueText :=
      trim_append (by simp) (by simp) hreads.first hreads.last
    rwa [List.nil_append, List.append_nil] at htrim
  have hdrop : (printed.field.name ++ '='.toUInt8 :: printed.valueText).drop
      (printed.field.name.length + 1) = printed.valueText := List.drop_length_add_append 1
  rw [DigestAuthFields.readToken, trim_text]
  simp only [hfind]
  rw [List.take_left, hdrop, hname, printed.field.lowercase_name, hvalue, hreads.trimQuotes,
    DigestField.set_name]

end PrintedField

/-- All fields of the credentials, printed in some order. -/
structure Printing (values : DigestAuthFields) where
  pieces : List PrintedField
  fields : (pieces.map PrintedField.field).Perm DigestField.all
  prints : ∀ printed ∈ pieces, printed.value = printed.field.get values
  username : values.username ≠ []

namespace Printing

variable {values : DigestAuthFields}

def header (printing : Printing values) : Bytes :=
  bytes "Digest " ++ [','.toUInt8].intercalate (printing.pieces.map PrintedField.text)

/-- Once its field is read, the value is there. -/
theorem get_foldl {pieces : List PrintedField}
    (hprints : ∀ printed ∈ pieces, printed.value = printed.field.get values)
    {fields : DigestAuthFields} {field : DigestField}
    (h : field ∈ pieces.map PrintedField.field ∨ field.get fields = field.get values) :
    field.get ((pieces.map PrintedField.text).foldl DigestAuthFields.readToken fields) =
      field.get values := by
  induction pieces generalizing fields with
  | nil => exact h.resolve_left List.not_mem_nil
  | cons printed pieces ih =>
      rw [List.forall_mem_cons] at hprints
      rw [List.map_cons, List.foldl_cons]
      apply ih hprints.2
      rw [PrintedField.readToken_text, DigestField.get_put, hprints.1]
      by_cases hfield : field = printed.field
      · rw [if_pos hfield, hfield]
        exact .inr rfl
      · rw [if_neg hfield]
        rw [List.map_cons, List.mem_cons] at h
        exact h.imp_left fun hmem => hmem.resolve_left hfield

/-- Credentials are read back as they were printed exactly where no quoted value holds a comma. -/
theorem parseDigestAuthorization_header_iff (printing : Printing values) :
    parseDigestAuthorization printing.header = .ok values ↔
      ∀ printed ∈ printing.pieces, printed.quoted = true → ','.toUInt8 ∉ printed.value := by
  constructor
  · intro h printed hmem _
    rw [printing.prints printed hmem]
    exact commaFree_of_parseDigestAuthorization h printed.field
  · intro h
    have hscheme : findSub (bytes "Digest ") printing.header = some 0 :=
      findSub_append (by decide) _
    have hlines : getlines ','.toUInt8 (printing.header.drop (0 + 7)) =
        printing.pieces.map PrintedField.text := by
      have hrest : printing.header.drop (0 + 7) =
          [','.toUInt8].intercalate (printing.pieces.map PrintedField.text) :=
        List.drop_left' (by decide)
      rw [hrest]
      apply getlines_intercalate
      intro line hline
      obtain ⟨printed, hmem, rfl⟩ := List.mem_map.mp hline
      exact ⟨PrintedField.not_mem_comma_text (h printed hmem), printed.text_ne_nil⟩
    have hread : (getlines ','.toUInt8 (printing.header.drop (0 + 7))).foldl
        DigestAuthFields.readToken {} = values := by
      apply DigestField.fields_ext
      intro field
      rw [hlines]
      exact get_foldl printing.prints (.inl (printing.fields.mem_iff.mpr field.mem_all))
    rw [parseDigestAuthorization, hscheme]
    simp only [Option.some_or]
    rw [hread, if_neg printing.username]

/-- A realm with a comma in it. -/
def roomValues : DigestAuthFields where
  username := bytes "alice"
  realm := bytes "Lab A, Room 2"
  nonce := bytes "dcd98b"
  uri := bytes "sip:ims.example.com"
  response := bytes "6629fae4"
  algorithm := bytes "MD5"
  qop := bytes "auth"
  nc := bytes "00000001"
  cnonce := bytes "0a4f113b"

/-- `Digest username="alice", realm="Lab A, Room 2", nonce="dcd98b", …`. -/
def roomPrinting : Printing roomValues where
  pieces := DigestField.all.map fun field =>
    { field
      value := field.get roomValues
      quoted := field ∉ [.algorithm, .qop, .nc]
      before := bytes " "
      content := by cases field <;> decide +kernel
      blanks := by decide +kernel }
  fields := List.Perm.refl _
  prints := by
    intro printed hmem
    obtain ⟨field, _, rfl⟩ := List.mem_map.mp hmem
    rfl
  username := by decide

theorem parseDigestAuthorization_roomPrinting :
    parseDigestAuthorization roomPrinting.header ≠ .ok roomValues := by
  intro h
  have hcomma : ','.toUInt8 ∈ DigestField.realm.get roomValues := by decide
  exact commaFree_of_parseDigestAuthorization h .realm hcomma

end Printing

end SimIms.Sip
