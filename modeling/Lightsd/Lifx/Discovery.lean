import Lightsd.Lifx.Receive

/-! # The watchdog

Bulbs and gateways that have been silent for too long are closed. Ages are
computed on unsigned 64-bit milliseconds and then kept in an int.
-/
namespace Lightsd.Lifx

def deviceTimeout : ℤ := 20000

/-- The difference of two clock readings, converted to an int. -/
def lag (now last : Time) : ℤ := ((now - last).toBitVec.setWidth 32).toInt

namespace Daemon

def watchdogBulb (now : Time) (d : Daemon) (b : BulbRef) : Daemon :=
  if deviceTimeout ≤ lag now (d.bulb b).lastLightStateAt then
    d.removeAndCloseBulb (d.bulb b).gw b
  else d

/-- A forced refresh only activates the refresh timer of the gateway. -/
def watchdogGateway (now : Time) (d : Daemon) (g : GatewayRef) : Daemon :=
  if deviceTimeout ≤ lag now (d.gw g).lastPktAt then d.gatewayClose g else d

/-- A pass over all bulbs and then over all gateways, at one time. The source reads the clock
before it looks at the bulbs, and again for each gateway. -/
def watchdog (d : Daemon) (now : Time) : Daemon :=
  let d := d.bulbs.foldl (watchdogBulb now) d
  d.gateways.foldl (watchdogGateway now) d

end Daemon
end Lightsd.Lifx
