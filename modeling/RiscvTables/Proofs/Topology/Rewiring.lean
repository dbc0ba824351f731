import RiscvTables.Proofs.DeviceTree.Edit
import RiscvTables.Topology.Receiver

/-!
# Changing the wires of one node

The wires of a node are one of its properties.  Setting it changes nothing else, neither the order
of the nodes nor their paths, nor where a phandle leads: `Rewired` says so by what the lookups
return, and `rewired_of_setProperty` that every such edit is a case of it.

So each question that the resolvers ask has the same answer before and after, but for the wires of
that node.  There is one lemma for each, in the order of the library.
-/

set_option autoImplicit false

namespace RiscvTables
namespace DeviceTree

/-- One tree is another with other wires at one node: the other lookups on them agree. -/
structure Rewired (node : NodeId) (tree tree' : DeviceTree) : Prop where
  size : tree'.size = tree.size
  name? : ∀ id, tree'.name? id = tree.name? id
  parent? : ∀ id, tree'.parent? id = tree.parent? id
  children : ∀ id, tree'.children id = tree.children id
  phandleOwner? : ∀ phandle, tree'.phandleOwner? phandle = tree.phandleOwner? phandle
  property? : ∀ id name, id ≠ node ∨ name ≠ "interrupts-extended" →
    tree'.property? id name = tree.property? id name

/-- **Setting the wires of a node rewires it.** -/
theorem rewired_of_setProperty {tree tree' : DeviceTree} {node : NodeId} {value : Bytes}
    (h : tree.setProperty node "interrupts-extended" value = .ok tree') :
    Rewired node tree tree' := by
  obtain ⟨hnode, ⟨-, rfl⟩ | ⟨hphandle, -⟩⟩ := setProperty_eq_ok_iff.1 h
  · refine ⟨size_putValue, fun _ => name?_putValue, fun _ => parent?_putValue,
      fun _ => children_putValue, fun _ => rfl, fun id name hother => ?_⟩
    rw [property?_eq_lookup, property?_eq_lookup, properties_putValue hnode]
    split
    next hid =>
      rw [lookup_putProperty, if_neg (hother.resolve_left (not_not_intro hid)), hid]
    next => rfl
  · exact absurd hphandle (by decide)

namespace Rewired

variable {node : NodeId} {tree tree' : DeviceTree} (h : Rewired node tree tree')
include h

/-! ## The order of the nodes -/

theorem climb? (levels : Nat) (id : NodeId) : tree'.climb? levels id = tree.climb? levels id := by
  induction levels generalizing id with
  | zero => rfl
  | succ levels ih => simp only [DeviceTree.climb?, h.parent?, h.children, ih]

theorem walk (steps : Nat) (prev : Option NodeId) :
    tree'.walk steps prev = tree.walk steps prev := by
  have hnext : tree'.nextNode? = tree.nextNode? := by
    funext prev
    cases prev with
    | none => rfl
    | some id => rw [DeviceTree.nextNode?, DeviceTree.nextNode?, h.children, h.size, h.climb?]
  induction steps generalizing prev with
  | zero => rfl
  | succ steps ih => simp only [DeviceTree.walk, hnext, ih]

theorem nodeList : tree'.nodeList = tree.nodeList := by
  rw [DeviceTree.nodeList, DeviceTree.nodeList, h.size, h.walk]

/-! ## Messages -/

theorem path (id : NodeId) : tree'.path id = tree.path id := by
  have hparts : ∀ levels id, tree'.partsUp levels id = tree.partsUp levels id := by
    intro levels
    induction levels with
    | zero => exact fun _ => rfl
    | succ levels ih => exact fun id => by simp only [partsUp, h.parent?, h.name?, ih]
  rw [DeviceTree.path, DeviceTree.path, h.size, hparts]

theorem malformed (id : NodeId) (property : String) :
    tree'.malformed id property = tree.malformed id property := by
  rw [DeviceTree.malformed, DeviceTree.malformed, h.path]

theorem missing (id : NodeId) (property : String) :
    tree'.missing id property = tree.missing id property := by
  rw [DeviceTree.missing, DeviceTree.missing, h.path]

/-! ## Properties -/

/-- A property of another name is the same at every node. -/
theorem property?_of_ne {name : String} (hname : name ≠ "interrupts-extended") (id : NodeId) :
    tree'.property? id name = tree.property? id name :=
  h.property? id name (.inr hname)

theorem compatibleNodes (model : String) :
    tree'.compatibleNodes model = tree.compatibleNodes model := by
  simp only [DeviceTree.compatibleNodes, h.nodeList, isCompatible,
    h.property?_of_ne (show "compatible" ≠ "interrupts-extended" by decide)]

theorem addressCells (id : NodeId) : tree'.addressCells id = tree.addressCells id := by
  rw [DeviceTree.addressCells, DeviceTree.addressCells, h.property?_of_ne (by decide)]

theorem sizeCells (id : NodeId) : tree'.sizeCells id = tree.sizeCells id := by
  rw [DeviceTree.sizeCells, DeviceTree.sizeCells, h.property?_of_ne (by decide)]

theorem regions? (id : NodeId) : tree'.regions? id = tree.regions? id := by
  simp only [DeviceTree.regions?, h.parent?, h.addressCells, h.sizeCells,
    h.property?_of_ne (show "reg" ≠ "interrupts-extended" by decide)]

theorem optionalCell (id : NodeId) {name : String} (hname : name ≠ "interrupts-extended") :
    tree'.optionalCell id name = tree.optionalCell id name := by
  rw [DeviceTree.optionalCell, DeviceTree.optionalCell, h.property?_of_ne hname, h.malformed]

theorem wires? {id : NodeId} (hid : id ≠ node) : tree'.wires? id = tree.wires? id := by
  rw [DeviceTree.wires?, DeviceTree.wires?, h.property? id _ (.inl hid), h.malformed]

/-! ## Harts -/

theorem hartId (cpu : NodeId) : tree'.hartId cpu = tree.hartId cpu := by
  simp only [DeviceTree.hartId, h.parent?, h.path, h.addressCells,
    h.property?_of_ne (show "reg" ≠ "interrupts-extended" by decide)]

theorem hartOfController (referrer : NodeId) (phandle : UInt32) :
    tree'.hartOfController referrer phandle = tree.hartOfController referrer phandle := by
  simp only [DeviceTree.hartOfController, h.phandleOwner?, h.parent?, h.path, h.hartId]

/-! ## The receiver -/

theorem receiverRecord (id : NodeId) (wireCount : Nat) :
    tree'.receiverRecord id wireCount = tree.receiverRecord id wireCount := by
  have hcell : ∀ name ∈ ["riscv,num-ids", "riscv,hart-index-bits", "riscv,num-guest-ids",
      "riscv,guest-index-bits", "riscv,group-index-bits", "riscv,group-index-shift"],
      tree'.optionalCell id name = tree.optionalCell id name := by
    intro name hname
    refine h.optionalCell id ?_
    rintro rfl
    exact absurd hname (by decide)
  simp only [List.forall_mem_cons] at hcell
  obtain ⟨hids, hbits, hguests, hguestBits, hgroupBits, hgroupShift, -⟩ := hcell
  rw [DeviceTree.receiverRecord, DeviceTree.receiverRecord, hids, hbits, hguests, hguestBits,
    hgroupBits, hgroupShift, h.missing]

theorem assignPages (id : NodeId) (pages : List (Wire × Nat)) :
    tree'.assignPages id pages = tree.assignPages id pages := by
  induction pages with
  | nil => rfl
  | cons page rest ih => simp only [DeviceTree.assignPages, h.hartOfController, ih]

theorem receiverWires {id : NodeId} (hid : id ≠ node) :
    tree'.receiverWires id = tree.receiverWires id := by
  simp only [DeviceTree.receiverWires, h.wires? hid, h.malformed]

end Rewired
end DeviceTree
end RiscvTables
