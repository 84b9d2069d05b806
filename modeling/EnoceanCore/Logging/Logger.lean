import EnoceanCore.Lib.Text

/-!
# Logging

The macros of `Logger.hpp` format a message into a buffer of 256 bytes and hand it to the logger;
on Zephyr `ZephyrAppender::write` puts the name of the function in front and passes the line on. A
message that is too long for the first buffer is cut, and one that is too long for the second is
replaced.

A formatted text is a list of characters; what is in a buffer are the bytes of its encoding in
UTF-8 (`bytesOf`). The logger is part of plog: whether there is one, and which severities it takes,
is a parameter. `snprintf` does not fail.
-/

namespace EnoceanCore.Logging

open Lib

inductive Severity where
  | none
  | fatal
  | error
  | warning
  | info
  | debug
  | verbose
  deriving DecidableEq, Repr

abbrev kLogBufSize : Nat := 256

/-- A text in UTF-8. -/
def bytesOf (t : Text) : List UInt8 := t.flatMap String.utf8EncodeChar

/-- What `snprintf` puts into a buffer in front of the null byte. -/
def snprintf (size : Nat) (bytes : List UInt8) : List UInt8 := bytes.take (size - 1)

/-- `LogDispatch`: the message that reaches the logger. `checkSeverity` is that of the logger, if
there is one. -/
def dispatch (checkSeverity : Option (Severity → Bool)) (severity : Severity) (message : Text) :
    Option (List UInt8) :=
  match checkSeverity with
  | .none => .none
  | some checkSeverity =>
    if !checkSeverity severity then .none else some (snprintf kLogBufSize (bytesOf message))

theorem snprintf_of_lt {size : Nat} {bytes : List UInt8} (h : bytes.length < size) :
    snprintf size bytes = bytes :=
  List.take_of_length_le (Nat.le_sub_one_of_lt h)

theorem length_bytesOf_le (t : Text) : (bytesOf t).length ≤ 4 * t.length := by
  induction t with
  | nil => exact Nat.le_refl 0
  | cons c t ih =>
    have hc := c.utf8Size_le_four
    rw [bytesOf, List.flatMap_cons, List.length_append, String.length_utf8EncodeChar,
      List.length_cons]
    have hrest : (t.flatMap String.utf8EncodeChar).length ≤ 4 * t.length := ih
    omega

/-- No two texts have the same bytes. -/
theorem bytesOf_injective : Function.Injective bytesOf := by
  intro t u h
  have hencoded : t.utf8Encode = u.utf8Encode := congrArg List.toByteArray h
  rw [← String.toByteArray_ofList, ← String.toByteArray_ofList] at hencoded
  exact String.ofList_injective (String.toByteArray_inj.mp hencoded)

/-! ## Zephyr -/

/-- The levels of the logging subsystem. -/
inductive Level where
  | err
  | wrn
  | inf
  | dbg
  deriving DecidableEq, Repr

abbrev kAppenderBufSize : Nat := 512

/-- `ZephyrAppender::write` -/
def write (severity : Severity) (func message : List UInt8) : Level × List UInt8 :=
  let line := func ++ bytesOf ": ".toList ++ message
  let buf := if line.length ≥ kAppenderBufSize then bytesOf "<truncated>".toList
    else snprintf kAppenderBufSize line
  match severity with
  | .fatal | .error => (.err, buf)
  | .warning => (.wrn, buf)
  | .info => (.inf, buf)
  | .debug | .verbose => (.dbg, buf)
  | .none => (.inf, buf)

/-- A short line is passed on. -/
theorem write_of_lt {func message : List UInt8} (h : func.length + message.length < 510)
    (severity : Severity) :
    (write severity func message).2 = func ++ bytesOf ": ".toList ++ message := by
  have hcolon : (bytesOf ": ".toList).length = 2 := by decide
  have hlength : (func ++ bytesOf ": ".toList ++ message).length < kAppenderBufSize := by
    rw [List.length_append, List.length_append, hcolon]
    show _ < 512
    omega
  have hbuf : (if (func ++ bytesOf ": ".toList ++ message).length ≥ kAppenderBufSize then
      bytesOf "<truncated>".toList
      else snprintf kAppenderBufSize (func ++ bytesOf ": ".toList ++ message)) =
      func ++ bytesOf ": ".toList ++ message := by
    rw [if_neg (Nat.not_le.mpr hlength), snprintf_of_lt hlength]
  cases severity <;> exact hbuf

end EnoceanCore.Logging
