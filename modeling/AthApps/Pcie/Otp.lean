import AthApps.Pcie.Eeprom

/-!
# PCIe configuration in OTP

One time programmable memory can set bits but never clear one, so a word keeps
its old bits under every write.  A pair of a register and its value takes two
words, and a pair is withdrawn by setting the low bits of its register.  The
module has `Ar9300ConfigSpaceCommitOtp` and
`Ar9300pcieAddressValueDataInitOtp`.
-/

set_option autoImplicit false

namespace AthApps.Pcie

/-- The 32-bit words of the OTP, by byte address. -/
abbrev Otp := Nat → UInt32

def blankOtp : Otp := fun _ => 0

def readIt (otp : Otp) (address : Nat) : UInt32 := otp address

/-- `WriteIt`: the new bits are set in addition to the old ones. -/
def writeIt (otp : Otp) (address : Nat) (value : UInt32) : Otp :=
  Function.update otp address (otp address ||| value)

def pcieOtpBase : Nat := 32
def pcieOtpTop : Nat := 200

def configOfWords (eregister evalue : UInt32) : PcieConfig :=
  ⟨(eregister &&& 0xffff).toUInt16, (evalue &&& 0xffff).toUInt16,
    ((evalue >>> 16) &&& 0xffff).toUInt16⟩

/-- The loop of `Ar9300pcieAddressValueDataInitOtp` over the `slots` places that
are left before `PCIE_OTP_TOP`. -/
def initOtpLoop (otp : Otp) : Nat → Nat → PcieTable → Int × PcieTable
  | 0, _, table => (valueOk, table)
  | slots + 1, address, table =>
    let eregister := readIt otp address
    if eregister = 0 then
      (valueOk, table)
    else if eregister &&& 3 = 0 then
      let table := table.push (configOfWords eregister (readIt otp (address + 4)))
      if table.num = maxPcieAddressValueData then
        (errMaxReached, table)
      else
        initOtpLoop otp slots (address + 8) table
    else
      initOtpLoop otp slots (address + 8) table

def visibleSlots : Nat := (pcieOtpTop - pcieOtpBase + 7) / 8

/-- `Ar9300pcieAddressValueDataInitOtp` -/
def initOtp (otp : Otp) (table : PcieTable) : Int × PcieTable :=
  initOtpLoop otp visibleSlots pcieOtpBase table.cleared

structure Pair where
  register : UInt32
  value : UInt32
  deriving DecidableEq

namespace PcieConfig

def toPair (entry : PcieConfig) : Pair :=
  ⟨entry.address.toUInt32, (entry.dataLow &&& 0xffff).toUInt32 |||
    ((entry.dataHigh &&& 0xffff).toUInt32 <<< 16)⟩

end PcieConfig

def newPairs (table : PcieTable) : List Pair := table.entries.map PcieConfig.toPair

def invalidate : UInt32 := 0xffff

/-- Withdraws the pair at `address` and verifies that by the word at `checked`.
An error rejects the chip and has the memory as it was left. -/
def withdraw (otp : Otp) (address checked : Nat) : Except Otp Otp :=
  let otp := writeIt otp address invalidate
  if readIt otp checked &&& 3 = 0 then .error otp else .ok otp

/-- One round of the loop over the existing pairs, at a register that is not
zero.  The result has the memory and the new `out`. -/
def existingRound (new : List Pair) (address out : Nat) (otp : Otp) : Except Otp (Otp × Nat) :=
  let eregister := readIt otp address
  if eregister &&& 3 ≠ 0 then
    .ok (otp, out)
  else
    match new[out]? with
    | none =>
      -- no new pair is left; the verification reads the value word
      (withdraw otp address (address + 4)).map fun otp => (otp, out)
    | some pair =>
      if eregister = pair.register then
        let evalue := readIt otp (address + 4)
        if evalue = pair.value then
          .ok (otp, out + 1)
        else if evalue &&& ~~~pair.value = 0 then
          -- the value is written over the register, and the test for success is negated
          let otp := writeIt otp address pair.value
          let check := readIt otp address
          if check = pair.value then
            (withdraw otp address address).map fun otp => (otp, out)
          else
            .ok (otp, out)
        else
          (withdraw otp address address).map fun otp => (otp, out)
      else
        (withdraw otp address address).map fun otp => (otp, out)

/-- The loop over the existing pairs, up to the first blank register or the limit. -/
def existingLoop (limit : Int) (new : List Pair) (address out : Nat) (otp : Otp) :
    Except Otp (Otp × Nat × Nat) :=
  if (address : Int) ≤ limit then
    if readIt otp address = 0 then
      .ok (otp, address, out)
    else
      match existingRound new address out otp with
      | .error otp => .error otp
      | .ok (otp, out) => existingLoop limit new (address + 8) out otp
  else
    .ok (otp, address, out)
  termination_by (limit + 1 - address).toNat
  decreasing_by omega

/-- `nregister [out]` and `nvalue [out]`; a retry can step in front of the
arrays, where `stray` says what is read. -/
def newPairAt (new : List Pair) (stray : Int → Pair) (out : Int) : Pair :=
  if out < 0 then stray out else new.getD out.toNat (stray out)

/-- Writes a word and verifies it; on a failure the pair at `address` is
withdrawn and `out` steps back, so that the next round tries again. -/
def writeVerified (otp : Otp) (address place : Nat) (value : UInt32) (out : Int) :
    Except Otp (Otp × Int) :=
  let otp := writeIt otp place value
  if readIt otp place ≠ value then
    (withdraw otp address address).map fun otp => (otp, out - 1)
  else
    .ok (otp, out)

/-- The loop that adds the new pairs that are left behind the existing ones. -/
def appendLoop (limit : Int) (new : List Pair) (stray : Int → Pair) (address : Nat) (out : Int)
    (otp : Otp) : Except Otp (Otp × Nat) :=
  if out < new.length then
    if limit < (address : Int) then
      .error otp
    else
      match writeVerified otp address address (newPairAt new stray out).register out with
      | .error otp => .error otp
      | .ok (otp, out) =>
        match writeVerified otp address (address + 4) (newPairAt new stray out).value out with
        | .error otp => .error otp
        | .ok (otp, out) => appendLoop limit new stray (address + 8) (out + 1) otp
  else
    .ok (otp, address)
  termination_by (limit + 1 - address).toNat
  decreasing_by omega

def readitBit : UInt32 := 0x4

/-- Sets the bit that makes the chip look at the initialization data. -/
def enableRead (otp : Otp) : Except Otp Otp :=
  if readIt otp 0 &&& readitBit = 0 then
    let otp := writeIt otp 0 readitBit
    if readitBit ≠ readIt otp 0 &&& readitBit then .error otp else .ok otp
  else
    .ok otp

/-- The value -1 of a commit that fails, with the memory as it was left. -/
def rejected (otp : Otp) : Int × Otp := (-1, otp)

/-- `Ar9300ConfigSpaceCommitOtp`; `used` is what `Ar9300EepromUsed` returns, and
the result is `PcieTop`, or -1 when the chip is rejected or the pairs do not fit. -/
def configSpaceCommitOtp (used : Int) (stray : Int → Pair) (table : PcieTable) (otp : Otp) :
    Int × Otp :=
  let limit := used - 8 - 4
  let new := newPairs table
  match existingLoop limit new pcieOtpBase 0 otp with
  | .error otp => rejected otp
  | .ok (otp, address, out) =>
    match appendLoop limit new stray address out otp with
    | .error otp => rejected otp
    | .ok (otp, address) =>
      if readIt otp address ≠ 0 then
        rejected otp
      else
        match enableRead otp with
        | .error otp => rejected otp
        | .ok otp => ((address : Int) + 8, otp)

end AthApps.Pcie
