import Lightsd.Core.LightStateText

/-! # The methods

Each method checks its parameters, builds the list of its targets and runs a command, and
tells the client how it went. All of them get at the client through the functions that
write to its connection, apart from the one that reads light states: it prints the address
of the client for its log.
-/
namespace Lightsd.Core.Jsonrpc

open Lifx

section Handlers
variable (set : Setting) (toks : List Token) (json : List UInt8)

/-- Tell the client how a command went. -/
def Caller.reply (c : Caller) : Reply → Caller
  | .result ok => c.sendResponse toks json (if ok then ascii "true" else ascii "false")
  | .couldNotAllocateTag => c.sendError toks json .internalError "couldn't allocate new tag"

namespace Session

def run (s : Session Daemon) (cmd : Command) : Session Daemon :=
  ⟨(cmd.run set.now s.world).1,s.caller.reply toks json (cmd.run set.now s.world).2⟩

def invalidParams (s : Session Daemon) : Session Daemon :=
  s.mapCaller (·.sendError toks json .invalidParams "Invalid parameters")

/-- The parameters of the current request by a table. -/
def extractParams (s : Session Daemon) (schema : List (Node ParamField)) :
    Except Crash (Bool × Output ParamField) :=
  match s.caller.currentRequest with
  | none => .error .nullToken
  | some request => extractAndValidateParams schema toks json request.params request.paramsNtokens

/-- Go on with the targets that were given, if they can be read. -/
def withTargets (s : Session Daemon) (out : Output ParamField) (k : List TargetName → Handler Daemon) :
    Except Crash (Session Daemon) :=
  match out.value .target with
  | none => .error .nullToken
  | some target => do
    let (caller,targets) ← buildTargetList toks json s.caller target (out.ntokens .target)
    match targets with
    | none => .ok { s with caller := caller }
    | some targets => k targets s

end Session

def paramToken (out : Output ParamField) (f : ParamField) : Except Crash Token :=
  match out.value f with
  | none => .error .nullToken
  | some i => readToken toks i

def floatParam (out : Output ParamField) (f : ParamField) (stop : ℤ) : Except Crash ℤ := do
  let tok ← paramToken toks out f
  if tokenLen tok = 0 then .error .assertion else .ok (floatRangeToUint16 json tok 0 stop)

/-- An integer that went through an int, and whether it was out of range for a long. -/
def intParam (out : Output ParamField) (f : ParamField) : Except Crash (ℤ × Bool) := do
  let tok ← paramToken toks out f
  .ok (toInt32 (strtol json tok.start).value,(strtol json tok.start).erange)

/-- The transition takes no time if nothing else is said. -/
def transitionParam (out : Output ParamField) : Except Crash (ℤ × Bool) :=
  if (out.value .transition).isSome then intParam toks json out .transition else .ok (0,false)

/-- A waveform is transient unless something else is said. -/
def transientParam (out : Output ParamField) : Except Crash Bool :=
  if (out.value .transient).isSome then do
    let tok ← paramToken toks out .transient
    .ok (byteAt json tok.start = 116)
  else .ok true

def inUint16 (n : ℤ) : Bool := 0 ≤ n && n ≤ 65535

def uint16 (n : ℤ) : UInt16 := .ofInt n
def uint32 (n : ℤ) : UInt32 := .ofInt n

/-- The assertions at the beginning of the command come first. -/
def setLightFromHsbk (h s b k t : ℤ) (targets : List TargetName) : Handler Daemon := fun session =>
  if !(inUint16 h && inUint16 s && inUint16 b && 2500 ≤ k && k ≤ 9000 && 0 ≤ t) then .error .assertion
  else .ok (session.run set toks json
    (.setLightFromHsbk targets ⟨uint16 h,uint16 s,uint16 b,uint16 k,uint32 t⟩))

def checkAndCallSetLightFromHsbk : Handler Daemon := fun session => do
  let (ok,out) ← session.extractParams toks json setLightFromHsbkSchema
  if !ok then .ok (session.invalidParams toks json)
  else
    let h ← floatParam toks json out .hue 360
    let s ← floatParam toks json out .saturation 1
    let b ← floatParam toks json out .brightness 1
    let (k,erange) ← intParam toks json out .kelvin
    if k < 2500 || 9000 < k || erange then .ok (session.invalidParams toks json)
    else
      let (t,erange) ← transitionParam toks json out
      if t < 0 || erange then .ok (session.invalidParams toks json)
      else session.withTargets toks json out (setLightFromHsbk set toks json h s b k t)

/-- The packet that the command sends. -/
def waveformPacket (waveform : ℕ) (h s b k period cycles skewRatio : ℤ) (transient : Bool) : Waveform :=
  ⟨transient,uint16 h,uint16 s,uint16 b,uint16 k,uint32 period,floatBits cycles.toNat,uint16 skewRatio,.ofNat waveform⟩

def setWaveform (waveform : ℕ) (h s b k period cycles skewRatio : ℤ) (transient : Bool)
    (targets : List TargetName) : Handler Daemon := fun session =>
  if !(inUint16 h && inUint16 s && inUint16 b && 2500 ≤ k && k ≤ 9000 && waveform ≤ 4 &&
      -32767 ≤ skewRatio && skewRatio ≤ 32768 && 0 ≤ period && 0 ≤ cycles) then .error .assertion
  else .ok (session.run set toks json
    (.setWaveform targets (waveformPacket waveform h s b k period cycles skewRatio transient)))

def checkAndCallSetWaveform : Handler Daemon := fun session => do
  let (ok,out) ← session.extractParams toks json setWaveformSchema
  if !ok then .ok (session.invalidParams toks json)
  else
    let name ← paramToken toks out .waveform
    let waveform := waveformStringIdToType (tokenText json name)
    if waveform = waveformInvalid then .ok (session.invalidParams toks json)
    else
      let h ← floatParam toks json out .hue 360
      let s ← floatParam toks json out .saturation 1
      let b ← floatParam toks json out .brightness 1
      let (k,erange) ← intParam toks json out .kelvin
      if k < 2500 || 9000 < k || erange then .ok (session.invalidParams toks json)
      else
        let (period,erange) ← intParam toks json out .period
        if period ≤ 0 || erange then .ok (session.invalidParams toks json)
        else
          let (cycles,erange) ← intParam toks json out .cycles
          if cycles ≤ 0 || erange then .ok (session.invalidParams toks json)
          else
            let skewRatio ← floatParam toks json out .skewRatio 1
            let transient ← transientParam toks json out
            session.withTargets toks json out
              (setWaveform set toks json waveform h s b k period cycles (skewRatio - 32767) transient)

/-- The methods that have targets and nothing else. -/
def checkAndCallTargetsOnly (k : List TargetName → Handler Daemon) : Handler Daemon := fun session => do
  let (ok,out) ← session.extractParams toks json targetSchema
  if !ok then .ok (session.invalidParams toks json)
  else session.withTargets toks json out k

/-- A command that is run for its targets. -/
def runFor (cmd : List TargetName → Command) : List TargetName → Handler Daemon :=
  fun targets session => .ok (session.run set toks json (cmd targets))

def checkAndCallPowerOn : Handler Daemon := checkAndCallTargetsOnly toks json (runFor set toks json .powerOn)
def checkAndCallPowerOff : Handler Daemon := checkAndCallTargetsOnly toks json (runFor set toks json .powerOff)
def checkAndCallPowerToggle : Handler Daemon :=
  checkAndCallTargetsOnly toks json (runFor set toks json .powerToggle)

/-- The address of the client is printed before anything is written. -/
def getLightState (targets : List TargetName) : Handler Daemon := fun session =>
  let devices := session.world.targetsToDevices targets
  match session.caller.addr with
  | none => .error .nullAddr
  | some _ => .ok ⟨session.world.checkTagPointers set devices,
      session.caller.sendResponse toks json (ascii "[" ++ session.world.lightStates set devices ++ ascii "]")⟩

def checkAndCallGetLightState : Handler Daemon := checkAndCallTargetsOnly toks json (getLightState set toks json)

/-- The methods that have targets and a label. -/
def checkAndCallProtoTagOrUntagOrSetLabel (cmd : List TargetName → List UInt8 → Command) : Handler Daemon :=
  fun session => do
    let (ok,out) ← session.extractParams toks json targetLabelSchema
    if !ok then .ok (session.invalidParams toks json)
    else session.withTargets toks json out (fun targets session => do
      let tok ← paramToken toks out .label
      .ok (session.run set toks json (cmd targets (cString (tokenText json tok)))))

def checkAndCallTag : Handler Daemon := checkAndCallProtoTagOrUntagOrSetLabel set toks json .tag
def checkAndCallUntag : Handler Daemon := checkAndCallProtoTagOrUntagOrSetLabel set toks json .untag
def checkAndCallSetLabel : Handler Daemon := checkAndCallProtoTagOrUntagOrSetLabel set toks json .setLabel

/-- The handlers of the methods. -/
def methodHandlers : Method → Handler Daemon
  | .powerOn => checkAndCallPowerOn set toks json
  | .powerOff => checkAndCallPowerOff set toks json
  | .powerToggle => checkAndCallPowerToggle set toks json
  | .setLightFromHsbk => checkAndCallSetLightFromHsbk set toks json
  | .setWaveform => checkAndCallSetWaveform set toks json
  | .getLightState => checkAndCallGetLightState set toks json
  | .tag => checkAndCallTag set toks json
  | .untag => checkAndCallUntag set toks json
  | .setLabel => checkAndCallSetLabel set toks json

end Handlers

/-- A setting in which nothing of the C library is printed. -/
def plainSetting : Setting := ⟨0,false,⟨fun _ _ _ => none,fun _ => []⟩⟩

end Lightsd.Core.Jsonrpc
