import RiscvTables.Record.Store

/-!
# Records of the platform

The records that describe the machine as a whole and not its interrupt wiring: the timer, the ISA
string and the cache blocks.  They come from two places, the device tree and the platform file,
and are combined field by field.
-/

set_option autoImplicit false

namespace RiscvTables

/-- The records of the platform, as far as they are known. -/
structure PlatformRecords where
  timer : Option TimerRecord := none
  isa : Option IsaRecord := none
  cacheBlocks : List CacheBlockRecord := []
deriving DecidableEq, Repr

namespace PlatformRecords

/-- The records with the gaps filled from others.  The cache blocks are one field: they are taken
from the others only if there are none. -/
def mergeOver (records base : PlatformRecords) : PlatformRecords where
  timer := records.timer.or base.timer
  isa := records.isa.or base.isa
  cacheBlocks := if records.cacheBlocks = [] then base.cacheBlocks else records.cacheBlocks

/-- The records as one batch. -/
def toRecords (records : PlatformRecords) : List Record :=
  records.timer.toList.map .timer ++ records.isa.toList.map .isa ++
    records.cacheBlocks.map .cacheBlock

end PlatformRecords
end RiscvTables
