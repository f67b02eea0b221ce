import SimIms.Cxx.Text

/-!
# Strings of the web UI

A string of the web UI is a sequence of 16-bit code units. What is stored of it is its UTF-8; a
surrogate that is not part of a pair is stored as the replacement character.
-/

namespace SimIms.WebUi

open Cxx

abbrev JsString := List UInt16

/-! ## Texts -/

/-- The code units of a character. -/
def codeUnits (c : Char) : JsString :=
  if c.toNat < 0x10000 then [.ofNat c.toNat]
  else
    let rest := c.toNat - 0x10000
    [.ofNat (0xD800 + rest / 0x400), .ofNat (0xDC00 + rest % 0x400)]

def js (text : String) : JsString := text.toList.flatMap codeUnits

def isHighSurrogate (unit : UInt16) : Bool := 0xD800 ≤ unit && unit < 0xDC00

def isLowSurrogate (unit : UInt16) : Bool := 0xDC00 ≤ unit && unit < 0xE000

/-- The bytes of a code point. -/
def utf8Code (code : Nat) : Bytes :=
  if code < 0x80 then [.ofNat code]
  else if code < 0x800 then [.ofNat (0xC0 + code / 64), .ofNat (0x80 + code % 64)]
  else if code < 0x10000 then
    [.ofNat (0xE0 + code / 4096), .ofNat (0x80 + code / 64 % 64), .ofNat (0x80 + code % 64)]
  else
    [.ofNat (0xF0 + code / 262144), .ofNat (0x80 + code / 4096 % 64),
      .ofNat (0x80 + code / 64 % 64), .ofNat (0x80 + code % 64)]

/-- The bytes of a code unit that stands for itself, or for nothing. -/
def utf8Unit (unit : UInt16) : Bytes :=
  utf8Code (if isHighSurrogate unit || isLowSurrogate unit then 0xFFFD else unit.toNat)

/-- The code point of a pair of surrogates. -/
def pairCode (high low : UInt16) : Nat :=
  0x10000 + (high.toNat - 0xD800) * 0x400 + (low.toNat - 0xDC00)

def utf8 : JsString → Bytes
  | [] => []
  | [unit] => utf8Unit unit
  | unit :: next :: rest =>
      if isHighSurrogate unit && isLowSurrogate next then utf8Code (pairCode unit next) ++ utf8 rest
      else utf8Unit unit ++ utf8 (next :: rest)

/-! ## Trimming and cases -/

/-- White space and line terminators. -/
def isJsSpace (unit : UInt16) : Bool :=
  (9 ≤ unit && unit ≤ 13) || unit == 0x20 || unit == 0xA0 || unit == 0x1680 ||
    (0x2000 ≤ unit && unit ≤ 0x200A) || unit == 0x2028 || unit == 0x2029 || unit == 0x202F ||
    unit == 0x205F || unit == 0x3000 || unit == 0xFEFF

def jsTrim (text : JsString) : JsString :=
  ((text.dropWhile isJsSpace).reverse.dropWhile isJsSpace).reverse

/-- `toLowerCase`, on the letters of which a lower case can be a hexadecimal digit. -/
def jsToLowerCase (text : JsString) : JsString :=
  text.map fun unit => if 0x41 ≤ unit ∧ unit ≤ 0x5A then unit + 0x20 else unit

/-- `toUpperCase`, on the letters of the type names. -/
def jsToUpperCase (text : JsString) : JsString :=
  text.map fun unit => if 0x61 ≤ unit ∧ unit ≤ 0x7A then unit - 0x20 else unit

/-! ## Numbers -/

/-- The value of a digit or a letter as a digit. -/
def digitOf (unit : UInt16) : Option Nat :=
  if 0x30 ≤ unit ∧ unit ≤ 0x39 then some (unit.toNat - 0x30)
  else if 0x61 ≤ unit ∧ unit ≤ 0x7A then some (unit.toNat - 0x57)
  else if 0x41 ≤ unit ∧ unit ≤ 0x5A then some (unit.toNat - 0x37)
  else none

/-- The digits at the start of a text. -/
def leadingDigits (radix : Nat) : JsString → List Nat
  | [] => []
  | unit :: rest =>
      match digitOf unit with
      | none => []
      | some digit => if digit < radix then digit :: leadingDigits radix rest else []

/-- `Number.parseInt`: no number where there is no digit. -/
def parseInt (text : JsString) (radix : Nat) : Option Int :=
  let text := text.dropWhile isJsSpace
  let (negative, text) := match text with
    | 0x2D :: rest => (true, rest)
    | 0x2B :: rest => (false, rest)
    | _ => (false, text)
  let text :=
    if radix = 16 ∧ ((js "0x").isPrefixOf text ∨ (js "0X").isPrefixOf text) then text.drop 2
    else text
  match leadingDigits radix text with
  | [] => none
  | digits =>
      let magnitude := digits.foldl (fun n digit => radix * n + digit) 0
      some (if negative then -(magnitude : Int) else magnitude)

/-- Whether a number is less than what rounds to infinity. -/
def isFinite (n : Int) : Bool := n.natAbs < 2 ^ 1024 - 2 ^ 970

/-! ## What is stored of a text -/

theorem utf8Code_ne_nil (code : Nat) : utf8Code code ≠ [] := by
  rw [utf8Code]
  split_ifs <;> exact List.cons_ne_nil _ _

/-- Only the empty text is stored as the empty text. -/
theorem utf8_ne_nil {text : JsString} (h : text ≠ []) : utf8 text ≠ [] := by
  fun_cases utf8 text with
  | case1 => exact (h rfl).elim
  | case2 => exact utf8Code_ne_nil _
  | case3 => exact List.append_ne_nil_of_left_ne_nil (utf8Code_ne_nil _) _
  | case4 => exact List.append_ne_nil_of_left_ne_nil (utf8Code_ne_nil _) _

end SimIms.WebUi
