import Lightsd.Core.FailedTag

/-! # The bit of a tag in the masks sent to bulbs

The tag and untag commands keep the 64-bit value of a tag id in an int. For ids up to 30
nothing is lost. The value of id 31 turns negative and stands for all bits from 31 on, and
the values of higher ids turn into zero, so the masks the bulbs are sent are the right ones
only in special cases.
-/
namespace Lightsd.Lifx

open Lightsd.Core

/-- The mask the tag command sends to a bulb with the given tags. -/
def tagMask? (tags : TagMask) (id : ℕ) : Option TagMask :=
  if tags &&& intTagValue id = 0 then some (tags ||| intTagValue id) else none

end Lightsd.Lifx
