import SimIms.Lib.Segments
import SimIms.Sip.Framing

/-!
# Messages that arrive in segments

A frame is a message as a peer writes it: lines that end with CRLF, an empty line, and a body of
the length that the header names. The body may be anything. Frames that arrive one after the other
are handed on as they are, wherever the stream is cut.
-/

namespace SimIms.Sip

open Cxx Lib

def crlf : Bytes := bytes "\r\n"

/-- The value of a line, if its name is that of the content length. -/
def contentLengthValue (line : Bytes) : Option Bytes :=
  match find line ':'.toUInt8 0 with
  | none => none
  | some colon =>
      let name := (trim (substr line 0 colon)).map toLower
      if name = bytes "content-length" ∨ name = bytes "l" then some (trim (line.drop (colon + 1)))
      else none

/-- A decimal number, of which this is the value. -/
structure Denotes (text : Bytes) (n : Nat) : Prop where
  nonempty : text ≠ []
  digits : ∀ d ∈ text, isDigit d = true
  value : digitsValue text = n

/-- A message with its header block and its body apart. -/
structure Frame where
  lines : List Bytes
  body : Bytes
  nonempty : lines ≠ []
  plain : ∀ line ∈ lines, line ≠ [] ∧ '\r'.toUInt8 ∉ line ∧ '\n'.toUInt8 ∉ line
  announced : match lines.findSome? contentLengthValue with
    | none => body = []
    | some value => Denotes value body.length

/-- The lines, and the empty one. -/
def headerBlock (lines : List Bytes) : Bytes := (lines.map (· ++ crlf)).flatten ++ crlf

def Frame.bytes (frame : Frame) : Bytes := headerBlock frame.lines ++ frame.body

/-- What `Connection::doRead` hands on of these segments, and what is left in `read_buffer`. -/
def receiveSegments (fuel : Nat) (segments : List Bytes) : Option (List Bytes × Bytes) :=
  Loop.receive tryExtractSipMessage fuel [] segments

/-! ## Header blocks -/

@[simp] theorem headerBlock_nil : headerBlock [] = crlf := rfl

@[simp] theorem headerBlock_cons (line : Bytes) (lines : List Bytes) :
    headerBlock (line :: lines) = line ++ (crlf ++ headerBlock lines) := by
  simp [headerBlock]

theorem length_headerBlock_cons (line : Bytes) (lines : List Bytes) :
    (headerBlock (line :: lines)).length = line.length + (2 + (headerBlock lines).length) := by
  rw [headerBlock_cons, List.length_append, List.length_append]
  rfl

/-- No line begins with a carriage return. -/
theorem findSub_crlf_append {c : UInt8} (hc : c ≠ '\r'.toUInt8) (s : Bytes) :
    findSub headerTerminator (crlf ++ c :: s) =
      (findSub headerTerminator (c :: s)).map (2 + ·) := by
  have hterminator : headerTerminator = ['\r'.toUInt8, '\n'.toUInt8, '\r'.toUInt8, '\n'.toUInt8] :=
    by decide
  have hcrlf : crlf ++ c :: s = '\r'.toUInt8 :: '\n'.toUInt8 :: c :: s := rfl
  have hfirst : headerTerminator.isPrefixOf ('\r'.toUInt8 :: '\n'.toUInt8 :: c :: s) = false := by
    rw [hterminator, List.isPrefixOf_cons_cons, List.isPrefixOf_cons_cons,
      List.isPrefixOf_cons_cons, beq_eq_false_iff_ne.mpr (Ne.symm hc)]
    simp
  have hsecond : headerTerminator.isPrefixOf ('\n'.toUInt8 :: c :: s) = false := by
    rw [hterminator, List.isPrefixOf_cons_cons]
    rfl
  rw [hcrlf, findSub, hfirst, findSub, hsecond]
  simp only [Bool.false_eq_true, if_false, Option.map_map]
  refine congrArg (fun f => Option.map f _) (funext fun i => ?_)
  simp only [Function.comp]
  omega

/-- The first empty line is the one at the end. -/
theorem findSub_headerBlock {lines : List Bytes} (hne : lines ≠ [])
    (hplain : ∀ line ∈ lines, line ≠ [] ∧ '\r'.toUInt8 ∉ line ∧ '\n'.toUInt8 ∉ line)
    (rest : Bytes) :
    ∃ headerEnd, findSub headerTerminator (headerBlock lines ++ rest) = some headerEnd ∧
      (headerBlock lines).length = headerEnd + headerTerminator.length := by
  induction lines with
  | nil => exact (hne rfl).elim
  | cons line lines ih =>
      obtain ⟨-, hcr, -⟩ := hplain line List.mem_cons_self
      have hskip : findSub headerTerminator (headerBlock (line :: lines) ++ rest) =
          (findSub headerTerminator (crlf ++ (headerBlock lines ++ rest))).map
            (line.length + ·) := by
        rw [headerBlock_cons, List.append_assoc, List.append_assoc]
        exact findSub_append_of_not_mem hcr _
      rw [hskip, length_headerBlock_cons]
      cases lines with
      | nil =>
          have hhere : findSub headerTerminator (crlf ++ (headerBlock [] ++ rest)) = some 0 := rfl
          rw [hhere]
          exact ⟨line.length, rfl, rfl⟩
      | cons next lines =>
          obtain ⟨headerEnd, hfind, hlength⟩ := ih (List.cons_ne_nil _ _)
            fun other hother => hplain other (List.mem_cons_of_mem _ hother)
          obtain ⟨hnext, hnextcr, -⟩ := hplain next (List.mem_cons_of_mem _ List.mem_cons_self)
          obtain ⟨c, text, rfl⟩ := List.exists_cons_of_ne_nil hnext
          have hc : c ≠ '\r'.toUInt8 := fun heq => hnextcr (heq ▸ List.mem_cons_self)
          rw [headerBlock_cons, List.append_assoc, List.cons_append] at hfind
          rw [headerBlock_cons, List.append_assoc, List.cons_append, findSub_crlf_append hc, hfind]
          refine ⟨line.length + (2 + headerEnd), rfl, ?_⟩
          rw [← headerBlock_cons, hlength]
          omega

/-- The lines of a header block, as the length is looked for in them. -/
theorem getlines_headerBlock {lines : List Bytes} (hplain : ∀ line ∈ lines, '\n'.toUInt8 ∉ line) :
    getlines '\n'.toUInt8 (headerBlock lines) =
      lines.map (· ++ ['\r'.toUInt8]) ++ [['\r'.toUInt8]] := by
  induction lines with
  | nil => rfl
  | cons line lines ih =>
      have hline : '\n'.toUInt8 ∉ line ++ ['\r'.toUInt8] := by
        rw [List.mem_append, not_or, List.mem_singleton]
        exact ⟨hplain line List.mem_cons_self, by decide⟩
      have hsplit : headerBlock (line :: lines) =
          (line ++ ['\r'.toUInt8]) ++ '\n'.toUInt8 :: headerBlock lines := by
        rw [headerBlock_cons, List.append_assoc]
        rfl
      rw [hsplit, getlines_append hline, ih fun other hother => hplain other
        (List.mem_cons_of_mem _ hother)]
      rfl

@[simp] theorem popCarriageReturn_append (line : Bytes) :
    popCarriageReturn (line ++ ['\r'.toUInt8]) = line := by
  rw [popCarriageReturn, List.getLast?_concat, if_pos rfl, List.dropLast_concat]

/-- The length is the value of the first line that has one. -/
theorem contentLengthOfLines_eq (lines : List Bytes) :
    contentLengthOfLines (lines.map (· ++ ['\r'.toUInt8]) ++ [['\r'.toUInt8]]) =
      match lines.findSome? contentLengthValue with
      | none => 0
      | some value => if value = [] then 0 else (stoul value).toOption.getD 0 := by
  induction lines with
  | nil => rfl
  | cons line lines ih =>
      rw [List.map_cons, List.cons_append, contentLengthOfLines, popCarriageReturn_append,
        List.findSome?_cons, contentLengthValue]
      cases hcolon : find line ':'.toUInt8 0 with
      | none => exact ih
      | some colon =>
          by_cases hname : (trim (substr line 0 colon)).map toLower = bytes "content-length" ∨
              (trim (substr line 0 colon)).map toLower = bytes "l"
          · have hnot : ¬ ((trim (substr line 0 colon)).map toLower ≠ bytes "content-length" ∧
                (trim (substr line 0 colon)).map toLower ≠ bytes "l") := by
              rintro ⟨hlong, hshort⟩
              exact hname.elim hlong hshort
            simp only [if_neg hnot, if_pos hname]
            split
            · rfl
            · cases stoul (trim (line.drop (colon + 1))) <;> rfl
          · have hboth : (trim (substr line 0 colon)).map toLower ≠ bytes "content-length" ∧
                (trim (substr line 0 colon)).map toLower ≠ bytes "l" := not_or.mp hname
            simp only [if_pos hboth, if_neg hname]
            exact ih

/-! ## Frames -/

namespace Frame

variable (frame : Frame)

theorem parseContentLength_eq (hsize : frame.body.length < 2 ^ 64) :
    parseContentLength (headerBlock frame.lines) = frame.body.length := by
  rw [parseContentLength, getlines_headerBlock fun line hline => (frame.plain line hline).2.2,
    contentLengthOfLines_eq]
  have hannounced := frame.announced
  split at hannounced
  · rw [hannounced]
    rfl
  · rename_i value hvalue
    have hrange : digitsValue value < 2 ^ 64 := by rwa [hannounced.value]
    rw [if_neg hannounced.nonempty, stoul_digits hannounced.nonempty hannounced.digits hrange,
      hannounced.value]
    rfl

theorem length_bytes : frame.bytes.length = (headerBlock frame.lines).length + frame.body.length :=
  List.length_append

/-- A buffer that holds the header block announces the length of the frame. -/
theorem headersLength_eq (rest : Bytes) :
    headersLength (headerBlock frame.lines ++ rest) = some (headerBlock frame.lines).length := by
  obtain ⟨headerEnd, hfind, hlength⟩ := findSub_headerBlock frame.nonempty frame.plain rest
  rw [headersLength, hfind, hlength]
  rfl

theorem announcedLength_eq (rest : Bytes) (hsize : frame.body.length < 2 ^ 64) :
    announcedLength (headerBlock frame.lines ++ rest) (headerBlock frame.lines).length =
      frame.bytes.length := by
  rw [announcedLength, List.take_left, frame.parseContentLength_eq hsize, length_bytes]

end Frame

theorem headersLength_eq_none_of_length_lt (frame : Frame) {front : Bytes}
    (hfront : front.IsPrefix frame.bytes)
    (hshort : front.length < (headerBlock frame.lines).length) : headersLength front = none := by
  rw [headersLength, Option.map_eq_none_iff, Option.eq_none_iff_forall_ne_some]
  intro i hfind
  obtain ⟨more, hmore⟩ := hfront
  obtain ⟨headerEnd, hend, hlength⟩ := findSub_headerBlock frame.nonempty frame.plain frame.body
  have hwhole := findSub_append hfind more
  rw [hmore, Frame.bytes, hend, Option.some.injEq] at hwhole
  have hle := findSub_add_length_le hfind
  omega

/-- A message is taken off when all of it is there. -/
theorem tryExtractSipMessage_takesOff :
    Loop.TakesOff tryExtractSipMessage Frame.bytes Frame.bytes (2 ^ 63) where
  nonempty frame := by
    rw [← List.length_pos_iff, frame.length_bytes, headerBlock, List.length_append]
    exact Nat.lt_of_lt_of_le (Nat.lt_add_left _ (by decide)) (Nat.le_add_right _ _)
  idle := rfl
  whole frame rest hsize := by
    have hlength : frame.bytes.length < 2 ^ 64 := by
      rw [List.length_append] at hsize
      omega
    have hbody : frame.body.length < 2 ^ 64 :=
      Nat.lt_of_le_of_lt (frame.length_bytes ▸ Nat.le_add_left _ _) hlength
    rw [tryExtractSipMessage_eq (Nat.lt_trans hsize (by decide))]
    have hheaders := frame.headersLength_eq (frame.body ++ rest)
    have hannounced := frame.announcedLength_eq (frame.body ++ rest) hbody
    rw [← List.append_assoc] at hheaders hannounced
    change headersLength (frame.bytes ++ rest) = _ at hheaders
    change announcedLength (frame.bytes ++ rest) _ = _ at hannounced
    rw [hheaders, Option.bind_some, hannounced, Nat.mod_eq_of_lt hlength]
    dsimp only
    rw [if_neg (by rw [List.length_append]; omega), List.take_left, List.drop_left]
  waits frame front hfront hshort hsize := by
    have hlength : frame.bytes.length < 2 ^ 64 := Nat.lt_trans hsize (by decide)
    have hbody : frame.body.length < 2 ^ 64 :=
      Nat.lt_of_le_of_lt (frame.length_bytes ▸ Nat.le_add_left _ _) hlength
    rw [tryExtractSipMessage_eq (Nat.lt_trans hshort hlength)]
    by_cases hblock : (headerBlock frame.lines).length ≤ front.length
    · -- The body is not complete.
      obtain ⟨part, rfl⟩ := List.prefix_of_prefix_length_le ⟨frame.body, rfl⟩ hfront hblock
      rw [frame.headersLength_eq part, Option.bind_some, frame.announcedLength_eq part hbody,
        Nat.mod_eq_of_lt hlength]
      exact if_pos hshort
    · -- The empty line is not complete: it would be found earlier in the frame as well.
      rw [headersLength_eq_none_of_length_lt frame hfront (Nat.lt_of_not_le hblock)]
      rfl

/-- However the frames of a connection are cut into segments, they are handed on as they are, in
their order, and nothing is left in `read_buffer`. -/
theorem receiveSegments_frames (frames : List Frame) (segments : List Bytes)
    (hsegments : segments.flatten = (frames.map Frame.bytes).flatten)
    (hsize : segments.flatten.length < 2 ^ 63) (fuel : Nat) (hfuel : frames.length < fuel) :
    receiveSegments fuel segments = some (frames.map Frame.bytes, []) := by
  refine tryExtractSipMessage_takesOff.receive_eq hsegments ?_ ?_ hfuel
  · rwa [Loop.stream, ← hsegments]
  · intro frame _
    exact List.length_pos_of_ne_nil (tryExtractSipMessage_takesOff.nonempty frame)

/-- A message whose body looks like the end of a header block and a header. -/
def misleadingFrame : Frame where
  lines := [bytes "MESSAGE sip:a SIP/2.0", bytes "L : 9"]
  body := bytes "\r\n\r\nl: 70"
  nonempty := List.cons_ne_nil _ _
  plain := by decide
  announced := (⟨by decide +kernel, by decide +kernel, by decide +kernel⟩ : Denotes (bytes "9") 9)

/-- A message without a body. -/
def emptyFrame : Frame where
  lines := [bytes "OPTIONS sip:b SIP/2.0"]
  body := []
  nonempty := List.cons_ne_nil _ _
  plain := by decide
  announced := rfl

theorem receiveSegments_frames_cut :
    receiveSegments 3 [bytes "MESSAGE sip:a SIP/2.0\r\nL : 9\r\n\r", bytes "\n\r\n\r\nl: 7", [],
        bytes "0OPTIONS sip:b SIP/2.0\r", bytes "\n\r\n"] =
      some ([misleadingFrame.bytes, emptyFrame.bytes], []) :=
  receiveSegments_frames [misleadingFrame, emptyFrame] _ (by decide) (by decide) 3 (by decide)

end SimIms.Sip
