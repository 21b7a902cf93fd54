import Mathlib.Data.List.Basic
import Mathlib.Algebra.Group.Int.Defs

/-!
# The table of PCIe configuration values

`devlib/ar9300/Ar9300PcieConfig.c` keeps the register values that the chip
loads at power up in the array `pcieAddressValueData`.  This module has the
table, the functions that change it in memory and the default contents.
-/

set_option autoImplicit false

namespace AthApps.Pcie

open Function (update update_of_ne update_self)
open List

structure PcieConfig where
  address : UInt16
  dataLow : UInt16
  dataHigh : UInt16
  deriving DecidableEq

/-- `MAX_pcieAddressValueData`, the number of array elements. -/
def maxPcieAddressValueData : Nat := 340

structure PcieTable where
  data : Nat → PcieConfig
  num : Nat
  numFromCard : Nat

def valueOk : Int := 0
def valueNew : Int := 1
def valueUpdated : Int := 2
def valueSame : Int := 3
def errReturn : Int := -1
def errValueBad : Int := -2
def errMaxReached : Int := -4
def errEepRead : Int := -5

namespace PcieTable

def cleared (table : PcieTable) : PcieTable := { table with num := 0, numFromCard := 0 }

def push (table : PcieTable) (entry : PcieConfig) : PcieTable :=
  { table with data := update table.data table.num entry, num := table.num + 1 }

def entries (table : PcieTable) : List PcieConfig := (List.range table.num).map table.data

def add (table : PcieTable) (address dataLow dataHigh : UInt16) : Int × PcieTable :=
  if ⟨address, dataLow, dataHigh⟩ ∈ table.entries then
    (valueSame, table)
  else if maxPcieAddressValueData ≤ table.num then
    (errMaxReached, table)
  else
    (valueNew, table.push ⟨address, dataLow, dataHigh⟩)

def pciExpressVendorDeviceAddr : UInt16 := 0x5000

def deviceIDSet (table : PcieTable) (deviceID : UInt16) : Int × PcieTable :=
  let entry := { table.data 0 with address := pciExpressVendorDeviceAddr }
  if entry.dataHigh = deviceID then
    (valueSame, { table with data := update table.data 0 entry })
  else
    (valueUpdated,
      { table with data := update table.data 0 { entry with dataHigh := deviceID } })

def vendorSet (table : PcieTable) (vendorID : UInt16) : Int × PcieTable :=
  let entry := { table.data 0 with address := pciExpressVendorDeviceAddr }
  if entry.dataLow = vendorID then
    (valueSame, { table with data := update table.data 0 entry })
  else
    (valueUpdated,
      { table with data := update table.data 0 { entry with dataLow := vendorID } })

def addAll : List PcieConfig → PcieTable → Int × PcieTable
  | [], table => (valueOk, table)
  | entry :: rest, table =>
    let (status, table) := table.add entry.address entry.dataLow entry.dataHigh
    if status = errMaxReached then (errMaxReached, table) else addAll rest table

/-- The entries of the default table; two of them depend on the chip. -/
def defaultEntries (ar9580 : Bool) : List PcieConfig :=
  [⟨0x5008, 0x0001, 0x0280⟩, ⟨0x407c, 0x0001, 0x0000⟩, ⟨0x4004, 0x021b, 0x0102⟩,
    if ar9580 then ⟨0x4040, 0x2e5e, 0x0831⟩ else ⟨0x4040, 0x2e5e, 0x0821⟩,
    ⟨0x4040, 0x003b, 0x0008⟩, ⟨0x4044, 0x0000, 0x0000⟩, ⟨0x570C, 0x3f01, 0x173f⟩]

/-- `Ar9300pcieAddressValueDataInitDefault` -/
def initDefault (ar9580 : Bool) (table : PcieTable) : Int × PcieTable :=
  let table := { table with numFromCard := table.num }
  let (_, table) := table.deviceIDSet (if ar9580 then 0x33 else 0x30)
  let (_, table) := table.vendorSet 0x168c
  let table := if table.num = 0 then { table with num := 2 } else table
  addAll (defaultEntries ar9580) table

variable (table : PcieTable) (list : List PcieConfig)

@[simp] theorem push_num (entry : PcieConfig) : (table.push entry).num = table.num + 1 := rfl

theorem push_data_self (entry : PcieConfig) : (table.push entry).data table.num = entry :=
  update_self _ _ _

theorem push_data_of_ne (entry : PcieConfig) (index : Nat)
    (other : index ≠ table.num) : (table.push entry).data index = table.data index :=
  update_of_ne other _ _

def pushAll (table : PcieTable) (list : List PcieConfig) : PcieTable := list.foldl push table

theorem pushAll_num : ∀ table : PcieTable, (table.pushAll list).num = table.num + list.length := by
  induction list with
  | nil =>
    intro table
    rfl
  | cons entry rest ih =>
    intro table
    have tail := ih (table.push entry)
    rw [push_num] at tail
    rw [length_cons, Nat.add_comm rest.length, ← Nat.add_assoc]
    exact tail

theorem pushAll_data_below : ∀ (table : PcieTable) (index : Nat),
    index < table.num → (table.pushAll list).data index = table.data index := by
  induction list with
  | nil =>
    intro table index below
    rfl
  | cons entry rest ih =>
    intro table index below
    have tail := ih (table.push entry) index (by rw [push_num]; omega)
    exact tail.trans (push_data_of_ne table entry index (by omega))

theorem pushAll_data : ∀ (table : PcieTable) (index : Nat),
    index < list.length → list[index]? = some ((table.pushAll list).data (table.num + index)) := by
  induction list with
  | nil =>
    intro table index bound
    cases bound
  | cons entry rest ih =>
    intro table index bound
    cases index with
    | zero =>
      have kept := pushAll_data_below rest (table.push entry) table.num (by rw [push_num]; omega)
      rw [push_data_self] at kept
      exact congrArg some kept.symm
    | succ index =>
      have tail := ih (table.push entry) index (by simpa using bound)
      rw [push_num, Nat.add_assoc, Nat.add_comm 1] at tail
      exact tail

theorem entries_pushAll_cleared (list : List PcieConfig) :
    (table.cleared.pushAll list).entries = list := by
  have num : (table.cleared.pushAll list).num = list.length := by
    rw [pushAll_num, cleared, Nat.zero_add]
  apply ext_getElem?
  intro index
  by_cases bound : index < list.length
  · have entry := pushAll_data list table.cleared index bound
    rw [cleared, Nat.zero_add] at entry
    rw [entries, num, getElem?_map, getElem?_range bound, entry]
    rfl
  · rw [getElem?_eq_none (by rw [entries, length_map, length_range]; omega),
      getElem?_eq_none (by omega)]

end PcieTable

end AthApps.Pcie
