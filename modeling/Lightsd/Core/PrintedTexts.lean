import Lightsd.Core.JsonParams
import Lightsd.Library.Calendar

/-! # Numbers, instants and addresses as texts

What the daemon prints besides fixed texts. Shares of a range are printed digit by digit,
instants as dates with a time of day, and the addresses of peers between brackets with their
port. What the C library does for floats and for the numbers of an Internet address is a
parameter.
-/
namespace Lightsd.Core.Jsonrpc

open Lifx Calendar

/-- What may go wrong. -/
inductive PrintFault
  | assertion
  | outside
  | overflow
  | endless
  deriving DecidableEq

section Numbers

def digitText (digit : ℕ) : UInt8 := .ofNat (if digit < 10 then 48 + digit else 87 + digit)

/-- A number in a base up to 16, with the most significant digit first. -/
def numberText (base n : ℕ) : List UInt8 :=
  if n = 0 then [48] else (Nat.digits base n).reverse.map digitText

/-- A byte as two hexadecimal digits. -/
def hexByte (b : UInt8) : List UInt8 := [digitText (b.toNat / 16),digitText (b.toNat % 16)]

/-- The digit of a power of ten in a number of millionths. The dot goes before that of a
tenth, with a zero before it if there was nothing else. -/
def millionthsDigit (started : Bool) (value e : ℕ) : List UInt8 :=
  (if 10 ^ e = floatPrec / 10 then if started then ascii "." else ascii "0." else []) ++ [digitText (value / 10 ^ e)]

/-- A number of millionths from a digit on. Zeros at the end of the fraction are left out. -/
def millionthsText (started : Bool) (value : ℕ) : ℕ → List UInt8
  | 0 => millionthsDigit started value 0
  | e + 1 => millionthsDigit started value (e + 1) ++
    (if value % 10 ^ (e + 1) ≠ 0 ∨ floatPrec ≤ 10 ^ e then millionthsText true (value % 10 ^ (e + 1)) e else [])

/-- The zeros before the first digit of a fraction that is less than a tenth. -/
def leadingZeros (e : ℕ) : List UInt8 :=
  if 10 ^ e < floatPrec / 10 then ascii "0." ++ List.replicate (5 - e) 48 else []

/-- A number that stands for a fraction of a range, in a buffer of a given size. -/
def uint16RangeToFloatString (encoded : UInt16) (start stop size : ℕ) : List UInt8 :=
  let value := encoded.toNat * (stop * floatPrec - start * floatPrec) / 65535
  if value = 0 then [48]
  else
    let e := Nat.log 10 value
    (leadingZeros e ++ millionthsText (10 ^ e < floatPrec / 10) value e).take (size - 1)

end Numbers

section Instants

def nsecsToSecs (nsecs : UInt64) : ℕ := nsecs.toNat / 1000000000

/-- The fields of a `struct tm` that are printed; years are counted from 1900 and months
from 0. -/
structure Tm where
  year : ℕ
  mon : ℕ
  mday : ℕ
  hour : ℕ
  min : ℕ
  sec : ℕ
  gmtoff : ℤ

/-- What `gmtime_r` makes of the seconds since 1970. -/
def gmtime (secs : ℕ) : Tm :=
  let date := dateOf 1970 (secs / 86400)
  ⟨date.year - 1900,date.month,date.day + 1,secs % 86400 / 3600,secs % 3600 / 60,secs % 60,0⟩

/-- A number with zeros in front of it up to a width. -/
def paddedText (width n : ℕ) : List UInt8 :=
  List.replicate (width - (numberText 10 n).length) 48 ++ numberText 10 n

def paddedInt (width : ℕ) (n : ℤ) : List UInt8 :=
  if n < 0 then 45 :: paddedText (width - 1) n.natAbs else paddedText width n.natAbs

/-- The offset from UTC, with the remainder of the seconds in place of the minutes. -/
def zoneText (gmtoff : ℤ) : List UInt8 :=
  (if 0 ≤ gmtoff then 43 else 45) ::
    (paddedInt 2 |(gmtoff.tdiv 60).tdiv 60| ++ 58 :: paddedInt 2 (gmtoff.tmod (60 * 60)))

/-- `LGTD_TM_TO_ISOTIME`, before the text is cut to the size of a buffer. -/
def tmToIsotime (tm : Tm) (usec : ℤ) : List UInt8 :=
  numberText 10 (1900 + tm.year) ++ 45 :: (paddedText 2 (1 + tm.mon) ++ 45 :: (paddedText 2 tm.mday ++
    84 :: (paddedText 2 tm.hour ++ 58 :: (paddedText 2 tm.min ++ 58 :: (paddedText 2 tm.sec ++
      ((if usec ≠ 0 then 46 :: paddedInt 0 usec else []) ++ zoneText tm.gmtoff))))))

/-- `LGTD_NSECS_TO_USECS`. -/
def nsecsToUsecs (nsecs : ℕ) : ℕ := nsecs / 1000000

/-- `lgtd_print_nsec_timestamp`: seconds are a signed number, and turning them back into
nanoseconds may overflow. -/
def printNsecTimestamp (nsecTs : UInt64) (bufsz : ℕ) : Except PrintFault (List UInt8) :=
  let ts := nsecsToSecs nsecTs
  if ts * 1000000000 < 2 ^ 63 then
    .ok ((tmToIsotime (gmtime ts) (nsecsToUsecs (nsecTs.toNat - ts * 1000000000))).take (bufsz - 1))
  else .error .overflow

/-- The text of an instant in a buffer of 64 bytes. There is none for an instant whose seconds
overflow. -/
def timestampText (nsecTs : UInt64) : List UInt8 := (printNsecTimestamp nsecTs 64).toOption.getD []

end Instants

section Addresses

/-- The address of a device with colons. -/
def macText (addr : Addr) : List UInt8 := [58].intercalate (addr.toList.map hexByte)

/-- The families of socket addresses that can be printed. -/
inductive AddressFamily
  | inet
  | inet6
  | unix
  deriving DecidableEq

/-- The family of a socket address, with the numbers and the layout of Linux on a machine that
stores the low byte first. -/
def saFamily (peer : SockAddr) : Option AddressFamily :=
  match (peer.getD 0 0).toNat + 256 * (peer.getD 1 0).toNat with
  | 1 => some .unix
  | 2 => some .inet
  | 10 => some .inet6
  | _ => none

/-- The port of an Internet address, which is in the order of the network. -/
def saPort (peer : SockAddr) : ℕ := 256 * (peer.getD 2 0).toNat + (peer.getD 3 0).toNat

/-- What the C library prints: the numbers of an Internet address, if they fit a buffer of a
given size, and a float with `%f`. -/
structure Printer where
  inetNtop : AddressFamily → List UInt8 → ℕ → Option (List UInt8)
  float : UInt32 → List UInt8

/-- `lgtd_sockaddrtoa`. Nothing is printed for another family or for want of space, where a
build with assertions aborts. -/
def sockaddrtoa (p : Printer) (peer : SockAddr) (buflen : ℕ) : Option (List UInt8) :=
  let port := ascii "]:" ++ numberText 10 (saPort peer)
  match saFamily peer with
  | some .inet => (p.inetNtop .inet ((peer.drop 4).take 4) (buflen - 8)).map (fun printed =>
      (ascii "[::ffff:" ++ printed ++ port).take (buflen - 1))
  | some .inet6 => (p.inetNtop .inet6 ((peer.drop 8).take 16) (buflen - 1)).map (fun printed =>
      (ascii "[" ++ printed ++ port).take (buflen - 1))
  | some .unix => some ((ascii "at " ++ cString (peer.drop 2)).take (buflen - 1))
  | none => none

/-- The text of the peer of a gateway in its buffer of 128 bytes. -/
def peerText (p : Printer) (peer : SockAddr) : List UInt8 := (sockaddrtoa p peer 128).getD []

end Addresses

end Lightsd.Core.Jsonrpc
