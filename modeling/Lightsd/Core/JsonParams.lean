import Lightsd.Core.JsonDispatch
import Lightsd.Core.Events

/-! # The parameters of the methods

The tables of the parameters, one for each shape of parameters that a method can have, and
how numbers and targets are read from the tokens that were found. The numbers are converted
with the precision of a millionth and without floating point.
-/
namespace Lightsd.Core.Jsonrpc

open Lifx

/-- The fields of the records that the tables fill in. -/
inductive ParamField
  | target | waveform | hue | saturation | brightness | kelvin | transition | period | cycles | skewRatio
  | transient | label
  deriving DecidableEq

def targetNode : Node ParamField := ⟨ascii "target",some .target,some .target,typeStringNumberOrArray,false⟩
def hueNode : Node ParamField := ⟨ascii "hue",some .hue,none,typeFloatBetween0And360,false⟩
def saturationNode : Node ParamField := ⟨ascii "saturation",some .saturation,none,typeFloatBetween0And1,false⟩
def brightnessNode : Node ParamField := ⟨ascii "brightness",some .brightness,none,typeFloatBetween0And1,false⟩
def kelvinNode : Node ParamField := ⟨ascii "kelvin",some .kelvin,none,typeInteger,false⟩

def setLightFromHsbkSchema : List (Node ParamField) :=
  [targetNode,hueNode,saturationNode,brightnessNode,kelvinNode,
   ⟨ascii "transition",some .transition,none,typeInteger,true⟩]

def setWaveformSchema : List (Node ParamField) :=
  [targetNode,⟨ascii "waveform",some .waveform,none,typeString,false⟩,hueNode,saturationNode,brightnessNode,
   kelvinNode,⟨ascii "period",some .period,none,typeInteger,false⟩,
   ⟨ascii "cycles",some .cycles,none,typeInteger,false⟩,
   ⟨ascii "skew_ratio",some .skewRatio,none,typeFloatBetween0And1,false⟩,
   ⟨ascii "transient",some .transient,none,typeBool,true⟩]

def targetSchema : List (Node ParamField) := [targetNode]

def targetLabelSchema : List (Node ParamField) :=
  [targetNode,⟨ascii "label",some .label,none,typeString,false⟩]

section Numbers

def floatPrec : ℕ := 1000000

/-- The digits behind the dot, from a character of the text on. A character that is no
digit counts as well. -/
def fracPart (json : List UInt8) (start len : ℕ) : List ℕ → ℕ → ℤ
  | [], _ => 0
  | multiplier :: multipliers, i =>
    if i = len then 0
    else ((byteAt json (start + i)).toNat - 48 : ℤ) * multiplier + fracPart json start len multipliers (i + 1)

def floatRangeToUint16 (json : List UInt8) (t : Token) (start stop : ℤ) : ℤ :=
  let range := stop * floatPrec - start * floatPrec
  let int := strtol json t.start
  let dot := int.stop - t.start
  let frac :=
    if dot ≠ tokenLen t ∧ byteAt json int.stop = 46 then
      fracPart json t.start (tokenLen t) [100000,10000,1000,100,10,1] (dot + 1)
    else 0
  ((int.value * floatPrec + frac) * 65535).tdiv range

/-- A number after it went through an int. -/
def toInt32 (n : ℤ) : ℤ := n.bmod (2 ^ 32)

/-- The bits of the float that a positive int is converted to, rounded to even. -/
def floatBits (n : ℕ) : UInt32 :=
  if n = 0 then 0
  else
    let e := n.log2
    let mantissa :=
      if e ≤ 23 then n * 2 ^ (23 - e)
      else
        let unit := 2 ^ (e - 23)
        let q := n / unit
        let r := n % unit
        if unit < 2 * r ∨ (2 * r = unit ∧ q % 2 = 1) then q + 1 else q
    .ofNat ((e + 127) * 2 ^ 23 + mantissa - 2 ^ 23)

def waveformTable : List (List UInt8) :=
  [ascii "SAW",ascii "SINE",ascii "HALF_SINE",ascii "TRIANGLE",ascii "SQUARE",ascii "INVALID"]

def waveformInvalid : ℕ := 5

def waveformStringIdToType (name : List UInt8) : ℕ := (waveformTable.findIdx? (· = name)).getD waveformInvalid

end Numbers

section Targets
variable (toks : List Token) (json : List UInt8)

/-- The loop over the tokens of the targets, from the last one to the first. -/
def targetLoop (first : ℕ) (c : Caller) : ℕ → List TargetName → Except Crash (Caller × Option (List TargetName))
  | 0, targets => .ok (c,some targets)
  | ti + 1, targets => do
    let tok ← readToken toks (first + ti)
    if typeStringOrNumber tok json then targetLoop first c ti (cString (tokenText json tok) :: targets)
    else .ok (c.sendError toks json .invalidParams "Invalid parameters",none)

/-- The targets of a command. If there are none the client has been told, or has not. -/
def buildTargetList (c : Caller) (target ntokens : ℕ) : Except Crash (Caller × Option (List TargetName)) :=
  if ntokens < 1 then .ok (c,none)
  else do
    let tok ← readToken toks target
    if tok.type = .array then targetLoop toks json (target + 1) c (ntokens - 1) []
    else if ntokens ≠ 1 then .ok (c,none)
    else targetLoop toks json target c ntokens []

end Targets
end Lightsd.Core.Jsonrpc
