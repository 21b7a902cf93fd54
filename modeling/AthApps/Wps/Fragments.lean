import AthApps.Wps.Attributes
import AthApps.Wps.Enrollee

/-!
# Fragments of a message

The first frame of a message that is cut has the length of the message behind
its header.  What is compared with the length of the frame is not this field
but the vendor identifier, and the field is taken for the first two bytes of
the message.
-/

set_option autoImplicit false

namespace AthApps.Wps

open Lib (Bytes)
open List Option

/-- What the frames of a message have in common; `beyond` is the memory behind them. -/
structure Header where
  code : UInt8
  identifier : UInt8
  opCode : UInt8
  beyond : Nat → UInt8

/-- The frame of `eap_wps_build_packet`. -/
def Header.packet (header : Header) (flags : UInt8) (payload : Bytes) : Frame where
  bytes := [header.code, header.identifier] ++ putBe16 (14 + payload.length) ++ wpsMethod ++
    [header.opCode, flags] ++ payload
  beyond := header.beyond

def Header.followers (header : Header) : List Bytes → List Frame
  | [] => []
  | [last] => [header.packet 0 last]
  | piece :: rest => header.packet 0x01 piece :: header.followers rest

def Header.fragments (header : Header) (first : Bytes) (rest : List Bytes) :
    List Frame :=
  if rest = [] then [header.packet 0 first]
  else
    header.packet 0x03 (putBe16 (first ++ rest.flatten).length ++ first) :: header.followers rest

section

variable (crypto : Crypto) (device : Device) (env : Env) (identity : Bytes)

/-- The frames pass `eap_wps_check` and `eap_wps_process`, the last one up to the state
machine. -/
@[grind =] def reassemble : List Frame → Machine → Option EapWpsData
  | [], machine => some machine.data
  | [last], machine =>
    if eapWpsCheck device last then
      (last.msgLen device).map fun msgLen => receive last msgLen machine.data
    else none
  | frame :: rest, machine =>
    if eapWpsCheck device frame then
      reassemble rest (eapWpsProcess crypto device env identity frame machine).2
    else none

theorem Frame.read_length (frame : Frame) (offset extent : Nat) :
    (frame.read offset extent).length = extent := by
  simp only [Frame.read, length_append, length_map, length_range]
  have inside := length_take_le extent (frame.bytes.drop offset)
  omega

variable {crypto device env identity}

theorem reassemble_more {frame : Frame} {rest : List Frame} {machine : Machine}
    {data : EapWpsData} (more : frame.moreFragments = true) (follows : rest ≠ [])
    (done : reassemble crypto device env identity (frame :: rest) machine = some data) :
    ∃ msgLen, eapWpsCheck device frame = true ∧ frame.msgLen device = some msgLen ∧
      reassemble crypto device env identity rest
        { machine with data := receive frame msgLen machine.data } = some data := by
  obtain ⟨next, others, rfl⟩ := exists_cons_of_ne_nil follows
  simp only [reassemble] at done
  split at done
  · next through =>
      have known := through
      simp only [eapWpsCheck, Bool.and_eq_true] at known
      obtain ⟨msgLen, length⟩ := isSome_iff_exists.mp known.2
      have passed : (eapWpsProcess crypto device env identity frame machine).2 =
          { machine with data := receive frame msgLen machine.data } := by
        simp only [eapWpsProcess, length, more, if_true]
      rw [passed] at done
      exact ⟨msgLen, through, length, done⟩
  · cases done

end

section

variable {device : Device} {header : Header} {flags : UInt8} {payload : Bytes}

@[simp] theorem Header.packet_length :
    (header.packet flags payload).bytes.length = 14 + payload.length := by
  simp [Header.packet, wpsMethod]
  omega

theorem Header.packet_more (more : flags &&& 0x01 ≠ 0) :
    (header.packet flags payload).moreFragments = true := bne_iff_ne.mpr more

theorem Header.packet_check :
    eapWpsCheck device (header.packet flags payload) = true ↔ 14 + payload.length < 65536 ∧
        ((header.packet flags payload).msgLen device).isSome = true := by
  have size : be16 ((header.packet flags payload).byte 2) ((header.packet flags payload).byte 3) =
      (14 + payload.length) % 65536 := by
    simp only [Header.packet, Frame.byte, putBe16, cons_append, nil_append,
      getD_cons_succ, getD_cons_zero, be16, UInt8.toNat_ofNat']
    omega
  have method : (List.range 8).map (fun place => (header.packet flags payload).byte (4 + place)) =
      wpsMethod := rfl
  rw [eapWpsCheck, size, method, packet_length]
  simp only [beq_self_eq_true, Bool.and_true, Bool.and_eq_true, beq_iff_eq]
  exact and_congr_left fun _ => ⟨fun same => by omega, Nat.mod_eq_of_lt⟩

theorem Header.packet_plain (plain : flags &&& 0x02 = 0) (fits : 14 + payload.length < 65536) :
    (header.packet flags payload).msgLen device = some payload.length ∧
      (header.packet flags payload).read 14 payload.length = payload := by
  have flag : (header.packet flags payload).byte 13 = flags := rfl
  have behind : (header.packet flags payload).bytes.drop 14 = payload := rfl
  constructor
  · rw [Frame.msgLen, flag, plain, packet_length, if_neg (by simp)]
    exact congrArg some (by omega)
  · simp [Frame.read, behind]

/-- A frame that is let through with the length flag has one of two lengths. -/
theorem Header.packet_first {msgLen : Nat} (fits : 14 + payload.length < 65536)
    (length : (header.packet 0x03 payload).msgLen device = some msgLen) :
    msgLen = 55 ∧ (payload.length = 55 ∨ payload.length = 17650) := by
  have high : (header.packet 0x03 payload).byte 2 = UInt8.ofNat ((14 + payload.length) / 256) := rfl
  have low : (header.packet 0x03 payload).byte 3 = UInt8.ofNat (14 + payload.length) := rfl
  have vendor : (header.packet 0x03 payload).byte 5 = 0 ∧
      (header.packet 0x03 payload).byte 6 = 0x37 := ⟨rfl, rfl⟩
  have flag : (header.packet 0x03 payload).byte 13 = 0x03 := rfl
  have number : be16 0 0x37 = 55 := by decide
  rw [Frame.msgLen, flag, if_pos (by decide), vendor.1, vendor.2, number, high, low] at length
  simp only [ite_none_right_eq_some, Option.some.injEq, host16, be16, UInt8.toNat_ofNat'] at length
  obtain ⟨compared, rfl⟩ := length
  refine ⟨compared, ?_⟩
  split at compared <;> omega

end

section

variable {crypto : Crypto} {device : Device} {env : Env} {identity : Bytes} {header : Header}
  {machine : Machine} {data : EapWpsData}

theorem reassemble_last {piece : Bytes}
    (done : reassemble crypto device env identity [header.packet 0 piece] machine = some data) :
    14 + piece.length < 65536 ∧
      data = receive (header.packet 0 piece) piece.length machine.data := by
  rw [reassemble] at done
  split at done
  · next through =>
      obtain ⟨fits, -⟩ := Header.packet_check.mp through
      rw [(Header.packet_plain (by decide) fits).1] at done
      exact ⟨fits, (Option.some.inj done).symm⟩
  · cases done

theorem reassemble_followers (pieces : List Bytes) :
    ∀ machine : Machine, (pieces ≠ [] → machine.data.fragment = true) →
      reassemble crypto device env identity (header.followers pieces) machine = some data →
      data.rcvMsg.length = machine.data.rcvMsg.length + pieces.flatten.length := by
  induction pieces with
  | nil =>
    intro machine _ done
    cases done
    rfl
  | cons piece rest ih =>
    intro machine begun done
    have going := begun (by simp)
    cases rest with
    | nil =>
      obtain ⟨-, rfl⟩ := reassemble_last done
      simp [receive, going, Frame.read_length]
    | cons next others =>
      obtain ⟨msgLen, through, length, done⟩ := reassemble_more (Header.packet_more (by decide))
        (by cases others <;> simp [Header.followers]) done
      obtain ⟨fits, -⟩ := Header.packet_check.mp through
      cases length.symm.trans (Header.packet_plain (by decide) fits).1
      have total := ih _ (fun _ => Header.packet_more (by decide)) done
      simp only [receive, going, if_true, length_append, Frame.read_length] at total
      simp only [flatten_cons, length_append] at total ⊢
      omega

/-- The first frame of a message that is cut is not let through, or leaves 55 bytes. -/
theorem reassemble_cut {first : Bytes} {rest : List Bytes} (cut : rest ≠ [])
    (idle : machine.data.fragment = false)
    (done : reassemble crypto device env identity (header.fragments first rest) machine =
      some data) :
    data.rcvMsg ≠ first ++ rest.flatten := by
  rw [Header.fragments, if_neg cut] at done
  have follows : header.followers rest ≠ [] := by
    match rest with
    | [_] | _ :: _ :: _ => simp [Header.followers]
  obtain ⟨msgLen, through, length, done⟩ := reassemble_more (Header.packet_more (by decide)) follows done
  obtain ⟨fits, -⟩ := Header.packet_check.mp through
  obtain ⟨rfl, size⟩ := Header.packet_first fits length
  have total := reassemble_followers rest _ (fun _ => Header.packet_more (by decide)) done
  simp only [receive, idle, Bool.false_eq_true, if_false, Frame.read_length] at total
  intro whole
  have same := congrArg List.length whole
  simp only [length_append, putBe16_length] at same size
  omega

/-- A message gets through exactly if it is in one piece that an EAP packet has room for.
The length that is computed for a packet is right exactly if the packet has the whole header
and, where it has the length flag, the machine is big endian. -/
theorem fragments_exact (device : Device) :
    (∀ (crypto : Crypto) (env : Env) (identity : Bytes) (header : Header)
      (first : Bytes) (rest : List Bytes) (machine : Machine),
      machine.data.fragment = false →
        ((∃ data, reassemble crypto device env identity (header.fragments first rest) machine =
            some data ∧ data.rcvMsg = first ++ rest.flatten) ↔
          rest = [] ∧ 14 + first.length < 65536)) ∧
    ∀ frame : Frame, eapWpsCheck device frame = true →
      (frame.msgLen device = some (frame.bytes.length - 14) ↔
        14 ≤ frame.bytes.length ∧ (frame.byte 13 &&& 0x02 = 0 ∨ device.bigEndian = true)) := by
  constructor
  · intro crypto env identity header first rest machine idle
    constructor
    · rintro ⟨data, done, whole⟩
      by_cases cut : rest = []
      · subst cut
        exact ⟨rfl, (reassemble_last done).1⟩
      · exact absurd whole (reassemble_cut cut idle done)
    · rintro ⟨rfl, fits⟩
      have plain : (header.packet 0 first).msgLen device = some first.length ∧
          (header.packet 0 first).read 14 first.length = first :=
        Header.packet_plain (by decide) fits
      have through := Header.packet_check.mpr ⟨fits, isSome_of_eq_some plain.1⟩
      rw [Header.fragments, if_pos rfl, reassemble, if_pos through, plain.1]
      refine ⟨_, rfl, ?_⟩
      simp [receive, idle, plain.2]
  · intro frame through
    simp only [eapWpsCheck, Bool.and_eq_true, beq_iff_eq] at through
    obtain ⟨⟨size, method⟩, some⟩ := through
    obtain ⟨msgLen, length⟩ := isSome_iff_exists.mp some
    rw [length, Option.some.injEq]
    have high := (frame.byte 2).toNat_lt
    have low := (frame.byte 3).toNat_lt
    have vendor : frame.byte 5 = 0 ∧ frame.byte 6 = 0x37 :=
      ⟨congrArg (·.getD 1 0) method, congrArg (·.getD 2 0) method⟩
    have number : be16 0 0x37 = 55 := by decide
    rw [Frame.msgLen, vendor.1, vendor.2, number] at length
    simp only [host16, be16] at size length
    split at length
    · next flag =>
        obtain ⟨compared, same⟩ := ite_none_right_eq_some.mp length
        obtain rfl := Option.some.inj same
        cases big : device.bigEndian <;> simp [big, flag] at compared ⊢ <;> omega
    · next flag =>
        obtain rfl := Option.some.inj length
        simp only [not_not.mp flag, true_or, and_true]
        omega

def idleMachine : Machine := ⟨Conf.initial, EapWpsData.zero, []⟩

def exampleHeader : Header := ⟨2, 1, 4, fun _ => 0⟩

theorem fragments_exact_whole :
    (∃ data, reassemble Crypto.internal exampleDevice exampleEnv [] (exampleHeader.fragments [7] [])
        idleMachine = some data ∧ data.rcvMsg = [7]) ∧
      (exampleHeader.packet 0 [7]).msgLen exampleDevice = some 1 :=
  ⟨((fragments_exact exampleDevice).1 Crypto.internal exampleEnv [] exampleHeader [7] [] idleMachine
      rfl).mpr ⟨rfl, by decide⟩,
    ((fragments_exact exampleDevice).2 (exampleHeader.packet 0 [7]) (by decide)).mpr
      ⟨by decide, .inl rfl⟩⟩

def shortFrame : Frame := ⟨[2, 1, 0, 12] ++ wpsMethod, fun _ => 0⟩

theorem fragments_lost : (¬ ∃ data, reassemble Crypto.internal exampleDevice exampleEnv []
        (exampleHeader.fragments [7] [[8]]) idleMachine = some data ∧ data.rcvMsg = [7, 8]) ∧
      eapWpsCheck exampleDevice shortFrame = true ∧
        shortFrame.msgLen exampleDevice = some 65534 := by
  have refused : eapWpsCheck exampleDevice (exampleHeader.packet 0x03 [0, 2, 7]) = false := by decide
  refine ⟨?_, by decide, by decide⟩
  rintro ⟨data, done, -⟩
  have none : reassemble Crypto.internal exampleDevice exampleEnv []
      (exampleHeader.fragments [7] [[8]]) idleMachine = none := if_neg (by decide)
  cases none.symm.trans done

end

end AthApps.Wps
