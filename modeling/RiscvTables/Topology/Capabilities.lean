import RiscvTables.Record.Platform
import RiscvTables.Topology.Harts

/-!
# What the cpus can do

The platform records that a device tree holds: the timer, from the `/cpus` node itself, and the
ISA string and the cache blocks, from the first cpu.  All of them may be absent; one that is there
must make sense.
-/

set_option autoImplicit false

namespace RiscvTables
namespace DeviceTree

variable (tree : DeviceTree)

/-- The timer: its frequency in one or two cells, and the word of the first timer node on whether
it can wake a cpu. -/
def readTimer (cpus : NodeId) : Except TopologyError (Option TimerRecord) :=
  match tree.property? cpus "timebase-frequency" with
  | none => .ok none
  | some value =>
    match PropertyValue.cells? value with
    | none | some [] => .error (tree.malformed cpus "timebase-frequency")
    | some cells =>
      match PropertyValue.numberOfCells? cells with
      | none => .error (tree.malformed cpus "timebase-frequency")
      | some frequency => .ok (some
          { frequency := UInt64.ofNat frequency
            cannotWakeCpu := (tree.nextCompatible? none "riscv,timer").any fun timer =>
              (tree.property? timer "riscv,timer-cannot-wake-cpu").isSome })

/-- A byte string without the zero byte at its end, if it has one there. -/
def dropFinalZero (bytes : Bytes) : Bytes :=
  if bytes.getLast? = some 0 then bytes.dropLast else bytes

/-- The ISA string of a cpu: text without a zero byte, but for one that may end it. -/
def readIsa (cpu : NodeId) : Except TopologyError (Option IsaRecord) :=
  match tree.property? cpu "riscv,isa" with
  | none => .ok none
  | some value =>
    let text := dropFinalZero value
    match Utf8.decode? text with
    | none => .error (tree.malformed cpu "riscv,isa")
    | some isa =>
      if text = [] ∨ 0 ∈ text then .error (tree.malformed cpu "riscv,isa")
      else .ok (some { isa })

/-- One of a cpu's cache-block sizes, as a logarithm. -/
def readBlockSize (cpu : NodeId) (property : String) : Except TopologyError (Option UInt8) := do
  match ← tree.optionalCell cpu property with
  | none => return none
  | some bytes =>
    match blockSizeLog2? (UInt64.ofNat bytes.toNat) with
    | none => throw (tree.malformed cpu property)
    | some size => return some size

/-- The cache blocks of a cpu, if it has a size for any operation. -/
def readCacheBlocks (cpu : NodeId) : Except TopologyError (Option CacheBlockRecord) := do
  let cbom ← tree.readBlockSize cpu "riscv,cbom-block-size"
  let cbop ← tree.readBlockSize cpu "riscv,cbop-block-size"
  let cboz ← tree.readBlockSize cpu "riscv,cboz-block-size"
  if cbom.isNone && cbop.isNone && cboz.isNone then return none
  return some { cbom := cbom.getD 0, cbop := cbop.getD 0, cboz := cboz.getD 0 }

/-- The platform records in the tree. -/
def capabilities (cpus : NodeId) : Except TopologyError PlatformRecords := do
  let timer ← tree.readTimer cpus
  match tree.cpuNodes cpus with
  | [] => return { timer }
  | cpu :: _ =>
    let isa ← tree.readIsa cpu
    let cacheBlocks ← tree.readCacheBlocks cpu
    return { timer, isa, cacheBlocks := cacheBlocks.toList }

end DeviceTree
end RiscvTables
