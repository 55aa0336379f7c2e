import Lightsd.Core.Jsmn

/-! # The types of parameters

The predicates by which the values of a request are checked, on a token and the bytes of
the buffer. They look at the bytes where the token begins, and some of them read on until
a number ends, whatever the token says.
-/
namespace Lightsd.Core.Jsonrpc

/-- The bytes of a text of the source. -/
def ascii (s : String) : List UInt8 := s.toByteArray.data.toList

def byteAt (json : List UInt8) (i : ℕ) : UInt8 := json.getD i 0

theorem byteAt_of_drop {json : List UInt8} {pos : ℕ} {c : UInt8} {rest : List UInt8}
    (h : json.drop pos = c :: rest) : byteAt json pos = c := by
  have hget : json[pos]? = some c := by
    have hhead := congrArg List.head? h
    simpa [List.head?_drop] using hhead
  simp [byteAt,hget]

def tokenLen (t : Token) : ℕ := (t.stop - t.start).toNat

def tokenText (json : List UInt8) (t : Token) : List UInt8 := (json.drop t.start).take (tokenLen t)

def isCSpace (c : UInt8) : Bool := c = 32 || (9 ≤ c && c ≤ 13)

def isDigit (c : UInt8) : Bool := 48 ≤ c && c ≤ 57

def decimal (digits : List UInt8) : ℕ := digits.foldl (fun n c => 10 * n + (c.toNat - 48)) 0

/-- What `strtol` gives: the number, where it stopped, and whether it was out of range. -/
structure Strtol where
  value : ℤ
  stop : ℕ
  erange : Bool
  deriving DecidableEq

def longMax : ℤ := 2 ^ 63 - 1
def longMin : ℤ := -2 ^ 63

/-- A number that does not fit is cut to the range. -/
def Strtol.clipped (v : ℤ) (stop : ℕ) : Strtol :=
  if v < longMin then ⟨longMin,stop,true⟩
  else if longMax < v then ⟨longMax,stop,true⟩
  else ⟨v,stop,false⟩

/-- `strtol` in base 10 on the bytes from an index on. Without digits it stops where it
started. -/
def strtol (json : List UInt8) (i : ℕ) : Strtol :=
  let s := json.drop i
  let blanks := (s.takeWhile isCSpace).length
  let s := s.drop blanks
  let sign := s.take 1
  let signLen := if sign = [45] ∨ sign = [43] then 1 else 0
  let digits := (s.drop signLen).takeWhile isDigit
  if digits = [] then ⟨0,i,false⟩
  else .clipped (if sign = [45] then -(decimal digits) else decimal digits)
    (i + blanks + signLen + digits.length)

/-- A predicate on values, as the tables of parameters refer to them. -/
abbrev TypeCmp := Token → List UInt8 → Bool

def typeInteger : TypeCmp := fun t json =>
  let r := strtol json t.start
  t.type = .primitive && r.stop = t.stop && !r.erange

/-- The loop over the characters of a number between zero and one. -/
def unitChars (dotSeen firstDigitIsOne : Bool) : List UInt8 → Bool
  | [] => true
  | c :: cs =>
    if c = 46 then !dotSeen && unitChars true firstDigitIsOne cs
    else if dotSeen then
      if c < 48 || 57 < c then false
      else if firstDigitIsOne && c ≠ 48 then false
      else unitChars dotSeen firstDigitIsOne cs
    else if firstDigitIsOne then false
    else if c = 49 then unitChars dotSeen true cs
    else c = 48 && unitChars dotSeen firstDigitIsOne cs

def typeFloatBetween0And1 : TypeCmp := fun t json =>
  t.type = .primitive && unitChars false false (tokenText json t)

/-- The fraction is read with `strtol` again, from behind the dot. -/
def typeFloatBetween0And360 : TypeCmp := fun t json =>
  if t.type ≠ .primitive then false
  else
    let c := byteAt json t.start
    let int := strtol json t.start
    if c ≠ 45 && (57 < c || c < 48) then false
    else if (int.stop ≠ t.stop && byteAt json int.stop ≠ 46) || int.erange || int.value < 0 ||
        360 < int.value || (int.value = 0 && c = 45) then false
    else if int.stop = t.stop then true
    else
      let frac := strtol json (int.stop + 1)
      frac.stop = t.stop && !frac.erange && 0 ≤ frac.value && (int.value < 360 || frac.value = 0)

def typeNumber : TypeCmp := fun t json =>
  t.type = .primitive && (byteAt json t.start = 45 || isDigit (byteAt json t.start))

def typeBool : TypeCmp := fun t json =>
  t.type = .primitive && (byteAt json t.start = 116 || byteAt json t.start = 102)

/-- The result of `memcmp` is returned as it is, which is true when the bytes differ, and
the number of bytes compared is taken from the number of children of the token. -/
def typeNull : TypeCmp := fun t json =>
  (List.range (min t.size 5)).any (fun i => byteAt json (t.start + i) ≠ (ascii "null").getD i 0)

def typeString : TypeCmp := fun t _ => t.type = .string

def typeArray : TypeCmp := fun t _ => t.type = .array

def typeObject : TypeCmp := fun t _ => t.type = .object

def typeObjectOrArray : TypeCmp := fun t _ => t.type = .object || t.type = .array

def typeStringNumberOrNull : TypeCmp := fun t json => typeNumber t json || typeNull t json || typeString t json

def typeStringOrNumber : TypeCmp := fun t json => typeString t json || typeNumber t json

def typeStringNumberOrArray : TypeCmp := fun t json =>
  typeString t json || typeNumber t json || typeArray t json

end Lightsd.Core.Jsonrpc
