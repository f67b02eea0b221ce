import SimIms.Lib.Loop
import SimIms.Cxx.Text

/-!
# TCP stream framing

A connection appends what it receives to `read_buffer` and then takes complete messages
off its front until none is left. A message ends `Content-Length` bytes after its header
block. The length is the sum of two `size_t` values, and `stoul` turns a negative number
into a huge one, so the sum can wrap around.

`FrameStart` gives the boundaries between messages that the header blocks announce, with
lengths added as natural numbers. The loop keeps to these boundaries exactly when no
announced length passes the last `size_t`.
-/

namespace SimIms.Sip

open Cxx Lib

def headerTerminator : Bytes := bytes "\r\n\r\n"

/-- Drop the carriage return that `std::getline` leaves at the end of a line. -/
def popCarriageReturn (line : Bytes) : Bytes :=
  if line.getLast? = some '\r'.toUInt8 then line.dropLast else line

/-- The value of the first `Content-Length` (or `l`) line; unreadable numbers count as 0. -/
def contentLengthOfLines : List Bytes → Nat
  | [] => 0
  | line :: lines =>
      let line := popCarriageReturn line
      match find line ':'.toUInt8 0 with
      | none => contentLengthOfLines lines
      | some colon =>
          let name := (trim (substr line 0 colon)).map toLower
          if name ≠ bytes "content-length" ∧ name ≠ bytes "l" then contentLengthOfLines lines
          else
            let value := trim (line.drop (colon + 1))
            if value = [] then 0
            else
              match stoul value with
              | .ok n => n
              | .error _ => 0

def parseContentLength (headers : Bytes) : Nat :=
  contentLengthOfLines (getlines '\n'.toUInt8 headers)

/-- Take one message off the front of the buffer. The result is the message and the
bytes left in the buffer. -/
def tryExtractSipMessage (buffer : Bytes) : Option (Bytes × Bytes) :=
  match findSub headerTerminator buffer with
  | none => none
  | some headerEnd =>
      let headersLen := sizeAdd headerEnd headerTerminator.length
      let contentLength := parseContentLength (substr buffer 0 headersLen)
      let fullLen := sizeAdd headersLen contentLength
      if buffer.length < fullLen then none
      else some (substr buffer 0 fullLen, buffer.drop fullLen)

/-- The extraction loop of `Connection::doRead`: the messages handed on, in order, and
the bytes left in `read_buffer`. -/
def extractMessages (fuel : Nat) (buffer : Bytes) : Option (List Bytes × Bytes) :=
  Loop.run tryExtractSipMessage fuel buffer

/-- The length of a complete header block at the front of the buffer, its blank line
included. -/
def headersLength (buffer : Bytes) : Option Nat :=
  (findSub headerTerminator buffer).map (· + headerTerminator.length)

/-- The length that a header block of `headersLen` bytes announces for its message. -/
def announcedLength (buffer : Bytes) (headersLen : Nat) : Nat :=
  headersLen + parseContentLength (buffer.take headersLen)

/-- What the loop owes its caller: it ends, each message it takes off is at least as
long as its header block, and the messages followed by the rest are the input. -/
structure FramesCleanly (buffer : Bytes) : Prop where
  ends : ∃ fuel messages rest, extractMessages fuel buffer = some (messages, rest) ∧
    messages.flatten ++ rest = buffer
  covers : ∀ front message rest, Loop.Visits tryExtractSipMessage buffer front →
    tryExtractSipMessage front = some (message, rest) →
      message ≠ [] ∧ ∃ headersLen, headersLength front = some headersLen ∧
        headersLen ≤ message.length

/-- The points of the input at which a message starts, as the header blocks announce it:
each complete message is followed by the next start. -/
inductive FrameStart (buffer : Bytes) : Bytes → Prop where
  | first : FrameStart buffer buffer
  | next {front : Bytes} {headersLen : Nat} : FrameStart buffer front →
      headersLength front = some headersLen →
      announcedLength front headersLen ≤ front.length →
      FrameStart buffer (front.drop (announcedLength front headersLen))

/-- No message start is followed by a header block whose announced length exceeds the
largest `size_t`. -/
def NoWrap (buffer : Bytes) : Prop :=
  ∀ front headersLen, FrameStart buffer front → headersLength front = some headersLen →
    announcedLength front headersLen < 2 ^ 64

/-! ## One iteration -/

theorem contentLengthOfLines_lt (lines : List Bytes) : contentLengthOfLines lines < 2 ^ 64 := by
  fun_induction contentLengthOfLines lines with
  | case1 => decide
  | case2 _ _ _ _ ih => exact ih
  | case3 _ _ _ _ _ _ _ ih => exact ih
  | case4 => decide
  | case5 _ _ _ _ _ _ _ _ _ _ hn => exact stoul_lt hn
  | case6 => decide

theorem parseContentLength_lt (headers : Bytes) : parseContentLength headers < 2 ^ 64 :=
  contentLengthOfLines_lt _

theorem headersLength_le {buffer : Bytes} {headersLen : Nat}
    (h : headersLength buffer = some headersLen) :
    headerTerminator.length ≤ headersLen ∧ headersLen ≤ buffer.length := by
  obtain ⟨headerEnd, hfind, rfl⟩ := Option.map_eq_some_iff.mp h
  exact ⟨Nat.le_add_left .., findSub_add_length_le hfind⟩

/-- One iteration in terms of the announced length: the message is cut where the wrapped
sum says. -/
theorem tryExtractSipMessage_eq {buffer : Bytes} (hsize : buffer.length < 2 ^ 64) :
    tryExtractSipMessage buffer =
      (headersLength buffer).bind fun headersLen =>
        let fullLen := announcedLength buffer headersLen % 2 ^ 64
        if buffer.length < fullLen then none
        else some (buffer.take fullLen, buffer.drop fullLen) := by
  unfold tryExtractSipMessage headersLength
  cases hfind : findSub headerTerminator buffer with
  | none => rfl
  | some headerEnd =>
      have hle := findSub_add_length_le hfind
      simp only [Option.map_some, Option.bind_some, announcedLength, sizeAdd, substr,
        List.drop_zero, Nat.mod_eq_of_lt (Nat.lt_of_le_of_lt hle hsize)]
      rfl

/-- An iteration takes the message off the front and keeps every other byte. -/
theorem tryExtractSipMessage_conserves {buffer message rest : Bytes}
    (h : tryExtractSipMessage buffer = some (message, rest)) : message ++ rest = buffer := by
  unfold tryExtractSipMessage at h
  split at h
  · cases h
  · simp only at h
    split at h
    · cases h
    · cases h
      simp [substr]

theorem extractMessages_conserves {fuel : Nat} {buffer rest : Bytes} {messages : List Bytes}
    (h : extractMessages fuel buffer = some (messages, rest)) :
    messages.flatten ++ rest = buffer := by
  have hkept := Loop.run_conserves id id (fun _ _ _ => tryExtractSipMessage_conserves) h
  simpa using hkept

/-- Inversion of an iteration that extracts a message of an announced length in range. -/
theorem tryExtractSipMessage_cases {buffer message rest : Bytes} {headersLen : Nat}
    (hsize : buffer.length < 2 ^ 64) (hheaders : headersLength buffer = some headersLen)
    (hrange : announcedLength buffer headersLen < 2 ^ 64)
    (h : tryExtractSipMessage buffer = some (message, rest)) :
    announcedLength buffer headersLen ≤ buffer.length ∧
      message = buffer.take (announcedLength buffer headersLen) ∧
      rest = buffer.drop (announcedLength buffer headersLen) := by
  rw [tryExtractSipMessage_eq hsize, hheaders] at h
  simp only [Option.bind_some, Nat.mod_eq_of_lt hrange] at h
  split at h
  · cases h
  · cases h
    exact ⟨by omega, rfl, rfl⟩

theorem exists_headersLength {buffer message rest : Bytes} (hsize : buffer.length < 2 ^ 64)
    (h : tryExtractSipMessage buffer = some (message, rest)) :
    ∃ headersLen, headersLength buffer = some headersLen := by
  rw [tryExtractSipMessage_eq hsize] at h
  obtain ⟨headersLen, hheaders, _⟩ := Option.bind_eq_some_iff.mp h
  exact ⟨headersLen, hheaders⟩

/-- An announced length past the last `size_t` cuts the message inside its own headers. -/
theorem tryExtractSipMessage_of_wrap {buffer : Bytes} {headersLen : Nat}
    (hsize : buffer.length < 2 ^ 64) (hheaders : headersLength buffer = some headersLen)
    (hwrap : 2 ^ 64 ≤ announcedLength buffer headersLen) :
    ∃ message rest, tryExtractSipMessage buffer = some (message, rest) ∧
      message.length < headersLen := by
  have hle := headersLength_le hheaders
  have hcontent := parseContentLength_lt (buffer.take headersLen)
  have hsum : announcedLength buffer headersLen =
      headersLen + parseContentLength (buffer.take headersLen) := rfl
  have hfull : announcedLength buffer headersLen % 2 ^ 64 =
      announcedLength buffer headersLen - 2 ^ 64 := by
    rw [Nat.mod_eq_sub_mod hwrap, Nat.mod_eq_of_lt (by omega)]
  rw [tryExtractSipMessage_eq hsize, hheaders]
  simp only [Option.bind_some, hfull]
  rw [if_neg (by omega)]
  refine ⟨_, _, rfl, ?_⟩
  rw [List.length_take]
  omega

/-! ## The loop -/

/-- The loop never grows the buffer. -/
theorem length_le_of_visits {buffer front : Bytes}
    (h : Loop.Visits tryExtractSipMessage buffer front) : front.length ≤ buffer.length := by
  induction h with
  | start => exact Nat.le_refl _
  | next _ hstep ih =>
      have := congrArg List.length (tryExtractSipMessage_conserves hstep)
      simp only [List.length_append] at this
      omega

/-- A start of a message is reached by the loop, whatever the rest of the input holds. -/
theorem visits_of_frameStart {buffer front : Bytes} (hsize : buffer.length < 2 ^ 64)
    (h : FrameStart buffer front) : Loop.Visits tryExtractSipMessage buffer front := by
  induction h with
  | first => exact .start
  | @next front headersLen _ hheaders hfits ih =>
      have hfront := Nat.lt_of_le_of_lt (length_le_of_visits ih) hsize
      refine .next (d := front.take (announcedLength front headersLen)) ih ?_
      rw [tryExtractSipMessage_eq hfront, hheaders]
      simp only [Option.bind_some, Nat.mod_eq_of_lt (Nat.lt_of_le_of_lt hfits hfront)]
      rw [if_neg (by omega)]

/-- Without wrap-around the loop stops at the starts of messages only. -/
theorem frameStart_of_visits {buffer front : Bytes} (hsize : buffer.length < 2 ^ 64)
    (hwrap : NoWrap buffer) (h : Loop.Visits tryExtractSipMessage buffer front) :
    FrameStart buffer front := by
  induction h with
  | start => exact .first
  | @next front _ _ hvisit hstep ih =>
      have hfront := Nat.lt_of_le_of_lt (length_le_of_visits hvisit) hsize
      obtain ⟨headersLen, hheaders⟩ := exists_headersLength hfront hstep
      obtain ⟨hfits, _, rfl⟩ := tryExtractSipMessage_cases hfront hheaders
        (hwrap _ _ ih hheaders) hstep
      exact .next ih hheaders hfits

/-- Without wrap-around each message holds its header block. -/
theorem headersLength_le_message {buffer front message rest : Bytes}
    (hsize : buffer.length < 2 ^ 64) (hwrap : NoWrap buffer)
    (hvisit : Loop.Visits tryExtractSipMessage buffer front)
    (hstep : tryExtractSipMessage front = some (message, rest)) :
    ∃ headersLen, headersLength front = some headersLen ∧ 0 < headersLen ∧
      headersLen ≤ message.length := by
  have hfront := Nat.lt_of_le_of_lt (length_le_of_visits hvisit) hsize
  obtain ⟨headersLen, hheaders⟩ := exists_headersLength hfront hstep
  have hstart := frameStart_of_visits hsize hwrap hvisit
  obtain ⟨hfits, rfl, _⟩ := tryExtractSipMessage_cases hfront hheaders
    (hwrap _ _ hstart hheaders) hstep
  have hpos : 0 < headerTerminator.length := by decide
  have hle := headersLength_le hheaders
  refine ⟨headersLen, hheaders, by omega, ?_⟩
  rw [List.length_take]
  have : headersLen ≤ announcedLength front headersLen := Nat.le_add_right ..
  omega

/-- Framing terminates and loses nothing exactly on the inputs none of whose messages
announces a length past the last `size_t`. -/
theorem framesCleanly_iff_noWrap (buffer : Str) :
    FramesCleanly buffer.data ↔ NoWrap buffer.data := by
  constructor
  · intro clean front headersLen hstart hheaders
    by_contra hrange
    have hvisit := visits_of_frameStart buffer.size_lt hstart
    have hfront := Nat.lt_of_le_of_lt (length_le_of_visits hvisit) buffer.size_lt
    obtain ⟨message, rest, hstep, hshort⟩ :=
      tryExtractSipMessage_of_wrap hfront hheaders (Nat.not_lt.mp hrange)
    obtain ⟨_, headersLen', hheaders', hlong⟩ := clean.covers _ _ _ hvisit hstep
    rw [hheaders, Option.some.injEq] at hheaders'
    omega
  · intro hwrap
    refine ⟨?_, ?_⟩
    · obtain ⟨fuel, messages, rest, hrun⟩ :=
        Loop.exists_run_of_decreasing (s := buffer.data) List.length
          (fun front message rest hvisit hstep => by
            obtain ⟨headersLen, _, hpos, hle⟩ :=
              headersLength_le_message buffer.size_lt hwrap hvisit hstep
            have := congrArg List.length (tryExtractSipMessage_conserves hstep)
            simp only [List.length_append] at this
            omega)
      exact ⟨fuel, messages, rest, hrun, extractMessages_conserves hrun⟩
    · intro front message rest hvisit hstep
      obtain ⟨headersLen, hheaders, hpos, hle⟩ :=
        headersLength_le_message buffer.size_lt hwrap hvisit hstep
      refine ⟨?_, headersLen, hheaders, hle⟩
      rintro rfl
      rw [List.length_nil] at hle
      omega

/-- A `Content-Length` of -8 after a header block of eight bytes adds up to zero: the
loop takes empty messages off the same buffer forever. -/
theorem framing_diverges_on_negative_content_length :
    ¬ ∀ buffer : Str, FramesCleanly buffer.data := by
  intro clean
  obtain ⟨fuel, messages, rest, hrun, _⟩ :=
    (clean ⟨bytes "l:-8\r\n\r\n", by decide⟩).ends
  have hfixed : tryExtractSipMessage (bytes "l:-8\r\n\r\n") =
      some ([], bytes "l:-8\r\n\r\n") := by decide
  rw [extractMessages, Loop.run_eq_none_of_fixed hfixed] at hrun
  cases hrun

end SimIms.Sip
