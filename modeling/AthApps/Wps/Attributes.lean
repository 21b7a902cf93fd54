import AthApps.Wps.Tlv

/-!
# Writing and parsing attributes

`wps_write_wps_data` and `wps_parse_wps_data` are inverse to each other on
lists of at most 255 attributes that do not end with an empty one.  The parser
stops at four bytes before the end of the buffer, so it drops an empty last
attribute and ignores up to four bytes behind the attributes.  The number of
attributes is kept in one byte.  `wps_set_value` reads a number of 32 bits
through a pointer to 16 bits and stores a length of more than 16 bits modulo
65536.
-/

set_option autoImplicit false

namespace AthApps.Wps

open Lib (Bytes)
open List Option

/-! ## Numbers on the wire -/

theorem be16_putBe16 (value : Nat) (small : value < 65536) :
    be16 (UInt8.ofNat (value / 256)) (UInt8.ofNat value) = value := by
  simp only [be16, UInt8.toNat_ofNat']
  omega

theorem putBe16_be16 (high low : UInt8) : putBe16 (be16 high low) = [high, low] := by
  have highLt := high.toNat_lt
  have lowLt := low.toNat_lt
  have first : UInt8.ofNat (be16 high low / 256) = high := by
    apply UInt8.toNat.inj
    simp only [be16, UInt8.toNat_ofNat']
    omega
  have second : UInt8.ofNat (be16 high low) = low := by
    apply UInt8.toNat.inj
    simp only [be16, UInt8.toNat_ofNat']
    omega
  rw [putBe16, first, second]

theorem be16_lt (high low : UInt8) : be16 high low < 65536 := by
  have highLt := high.toNat_lt
  have lowLt := low.toNat_lt
  simp only [be16]
  omega

theorem putBe16_above (high low : Nat) : putBe16 (high * 65536 + low) = putBe16 low := by
  have first : UInt8.ofNat ((high * 65536 + low) / 256) = UInt8.ofNat (low / 256) := by
    apply UInt8.toNat.inj
    simp only [UInt8.toNat_ofNat']
    omega
  have second : UInt8.ofNat (high * 65536 + low) = UInt8.ofNat low := by
    apply UInt8.toNat.inj
    simp only [UInt8.toNat_ofNat']
    omega
  rw [putBe16, putBe16, first, second]

@[simp] theorem putBe16_length (value : Nat) : (putBe16 value).length = 2 := rfl

/-! ## Attributes that fit the table -/

def Value.kind : Value → ValType
  | .bool _ => .bool
  | .u8 _ => .u8
  | .u16 _ => .u16
  | .u32 _ => .u32
  | .ptr _ => .ptr

/-- The table has an entry for the type and the length, and the value is of its
kind and has that length. -/
structure Tlv.Valid (tlv : Tlv) : Prop where
  matched : ∃ set, wpsMatchTlv tlv.type tlv.length = some set ∧ tlv.value.kind = set.valueType
  sized : tlv.value.bytes.length = tlv.length

theorem tlvSets_small : ∀ set ∈ wpsTlvSets, set.type < 65536 ∧ set.length < 65536 := by
  decide

theorem tlvSets_kind : ∀ set ∈ wpsTlvSets, ∀ other ∈ wpsTlvSets, set.type = other.type →
    set.valueType = other.valueType := by
  decide +kernel

theorem wpsMatchTlv_spec {type length : Nat} {set : TlvSet}
    (matched : wpsMatchTlv type length = some set) :
    set ∈ wpsTlvSets ∧ set.type = type ∧ set.admits length = true := by
  have mem := mem_of_find?_eq_some matched
  have holds := find?_some matched
  rw [Bool.and_eq_true, beq_iff_eq] at holds
  exact ⟨mem, holds.1, holds.2⟩

variable {bigEndian : Bool} {calls : List (Nat × Source)} {wps after : WpsData} {type : Nat}
  {tlv : Tlv}

theorem wpsGetTlvSet_spec {set : TlvSet} (found : wpsGetTlvSet type = some set) :
    set ∈ wpsTlvSets ∧ set.type = type := by
  have mem := mem_of_find?_eq_some found
  have holds := find?_some found
  rw [beq_iff_eq] at holds
  exact ⟨mem, holds⟩

theorem wpsMatchTlv_small {type length : Nat} {set : TlvSet}
    (matched : wpsMatchTlv type length = some set) : type < 65536 ∧ length < 65536 := by
  obtain ⟨mem, rfl, admits⟩ := wpsMatchTlv_spec matched
  obtain ⟨typeSmall, lengthSmall⟩ := tlvSets_small set mem
  refine ⟨typeSmall, ?_⟩
  unfold TlvSet.admits at admits
  cases kind : set.lengthType with
  | fix =>
    simp only [kind, beq_iff_eq] at admits
    omega
  | max =>
    simp only [kind, decide_eq_true_eq] at admits
    omega
  | min =>
    simp only [kind, decide_eq_true_eq] at admits
    omega

theorem readValue_bytes (value : Value) (rest : Bytes) :
    readValue value.kind value.bytes.length (value.bytes ++ rest) = some value := by
  cases value with
  | bool value => rfl
  | u8 value => rfl
  | u16 value =>
    have small : value.toNat < 65536 := value.toNat_lt
    show some (Value.u16 (UInt16.ofNat (be16 _ _))) = _
    rw [be16_putBe16 _ small, UInt16.ofNat_toNat]
  | u32 value =>
    have small : value.toNat < 4294967296 := value.toNat_lt
    show some (Value.u32 (UInt32.ofNat (be16 _ _ * 65536 + be16 _ _))) = _
    rw [be16_putBe16 _ (by omega)]
    have low : be16 (UInt8.ofNat (value.toNat / 256)) (UInt8.ofNat value.toNat) =
        value.toNat % 65536 := by
      simp only [be16, UInt8.toNat_ofNat']
      omega
    rw [low, Nat.div_add_mod', UInt32.ofNat_toNat]
  | ptr value =>
    show some (Value.ptr ((value ++ rest).take value.length)) = _
    rw [take_left']
    rfl

theorem readValue_spec {valueType : ValType} {length : Nat} {bytes : Bytes} {value : Value}
    (enough : length ≤ bytes.length) (read : readValue valueType length bytes = some value) :
    value.kind = valueType ∧ value.bytes = bytes.take length := by
  unfold readValue at read
  split at read
  · cases read
    exact ⟨rfl, rfl⟩
  · cases read
    exact ⟨rfl, rfl⟩
  · cases read
    refine ⟨rfl, ?_⟩
    rename_i b0 b1 rest
    show putBe16 (UInt16.ofNat (be16 b0 b1)).toNat = [b0, b1]
    rw [UInt16.toNat_ofNat_of_lt' (be16_lt b0 b1), putBe16_be16]
  · cases read
    refine ⟨rfl, ?_⟩
    rename_i b0 b1 b2 b3 rest
    have high := be16_lt b0 b1
    have low := be16_lt b2 b3
    show putBe32 (UInt32.ofNat (be16 b0 b1 * 65536 + be16 b2 b3)).toNat = [b0, b1, b2, b3]
    have whole : (UInt32.ofNat (be16 b0 b1 * 65536 + be16 b2 b3)).toNat =
        be16 b0 b1 * 65536 + be16 b2 b3 := by
      apply UInt32.toNat_ofNat_of_lt'
      show _ < 4294967296
      omega
    have upper : (be16 b0 b1 * 65536 + be16 b2 b3) / 65536 = be16 b0 b1 := by omega
    rw [whole, putBe32, upper, putBe16_above, putBe16_be16, putBe16_be16]
    rfl
  · cases read
    exact ⟨rfl, rfl⟩
  · cases read

/-! ## One attribute -/

theorem Tlv.write_length (tlv : Tlv) : tlv.write.length = 4 + tlv.value.bytes.length := by
  simp only [Tlv.write, length_append, putBe16_length]

theorem Tlv.Valid.write_length (valid : tlv.Valid) : tlv.write.length = 4 + tlv.length := by
  rw [Tlv.write_length, valid.sized]

theorem wpsGetTlv_write (valid : tlv.Valid) (rest : Bytes)
    (more : tlv.value.bytes ++ rest ≠ []) : wpsGetTlv (tlv.write ++ rest) = some tlv := by
  obtain ⟨set, matched, kind⟩ := valid.matched
  obtain ⟨typeSmall, lengthSmall⟩ := wpsMatchTlv_small matched
  have enough : ¬(tlv.value.bytes ++ rest).length < tlv.length := by
    rw [length_append, valid.sized]
    omega
  have read := readValue_bytes tlv.value rest
  rw [kind, valid.sized] at read
  simp only [Tlv.write, putBe16, cons_append, nil_append, wpsGetTlv,
    be16_putBe16 _ typeSmall, be16_putBe16 _ lengthSmall, if_neg more, matched, if_neg enough,
    read, map_some]

theorem wpsGetTlv_spec {buf : Bytes} (got : wpsGetTlv buf = some tlv) :
    tlv.Valid ∧ buf = tlv.write ++ buf.drop (4 + tlv.length) := by
  unfold wpsGetTlv at got
  split at got
  · rename_i t0 t1 l0 l1 rest
    simp only at got
    split at got
    · cases got
    · split at got
      · cases got
      · rename_i set matched
        split at got
        · cases got
        · rename_i enough
          obtain ⟨value, read, rfl⟩ := map_eq_some_iff.mp got
          obtain ⟨kind, bytes⟩ := readValue_spec (by omega) read
          have sized : value.bytes.length = be16 l0 l1 := by
            rw [bytes, length_take]
            omega
          refine ⟨⟨⟨set, matched, kind⟩, sized⟩, ?_⟩
          rw [Tlv.write, putBe16_be16, putBe16_be16, bytes, Nat.add_comm 4]
          simp only [cons_append, nil_append, drop_succ_cons,
            take_append_drop]
  · cases got

/-! ## The counter -/

/-- Attributes that are added one after the other; with the 256th the list is
empty. -/
def addTlvs (wps tlvs : WpsData) : WpsData :=
  tlvs.foldl (fun wps tlv => if wps.length = 255 then [] else wps ++ [tlv]) wps

variable (tlvs : WpsData) (tail : Bytes)

theorem addTlvs_few : ∀ wps : WpsData, wps.length + tlvs.length ≤ 255 →
    addTlvs wps tlvs = wps ++ tlvs := by
  induction tlvs with
  | nil =>
    intro wps few
    exact (append_nil wps).symm
  | cons tlv rest ih =>
    intro wps few
    rw [length_cons] at few
    have room : ¬wps.length = 255 := by omega
    rw [addTlvs, foldl_cons, if_neg room]
    show addTlvs (wps ++ [tlv]) rest = _
    rw [ih _ (by rw [length_append, length_singleton]; omega), append_assoc]
    rfl

/-- What is left is the end of the list, without a multiple of 256 attributes. -/
theorem addTlvs_drop : ∀ wps : WpsData, wps.length ≤ 255 →
    ∃ laps, addTlvs wps tlvs = (wps ++ tlvs).drop (256 * laps) ∧
      (addTlvs wps tlvs).length + 256 * laps = wps.length + tlvs.length ∧
      (addTlvs wps tlvs).length ≤ 255 := by
  induction tlvs with
  | nil =>
    intro wps few
    exact ⟨0, by rw [append_nil]; rfl, rfl, few⟩
  | cons tlv rest ih =>
    intro wps few
    rw [addTlvs, foldl_cons]
    show ∃ laps, addTlvs _ rest = _ ∧ (addTlvs _ rest).length + _ = _ ∧ (addTlvs _ rest).length ≤ _
    by_cases full : wps.length = 255
    · rw [if_pos full]
      obtain ⟨laps, dropped, lengths, few'⟩ := ih [] (by decide)
      refine ⟨laps + 1, ?_, ?_, few'⟩
      · have front : (wps ++ [tlv]).length = 256 := by
          rw [length_append, full]
          rfl
        rw [dropped, nil_append, append_cons, Nat.mul_succ, Nat.add_comm,
          ← drop_drop, ← front, drop_left]
      · rw [length_nil] at lengths
        rw [length_cons]
        omega
    · rw [if_neg full]
      obtain ⟨laps, dropped, lengths, few'⟩ := ih (wps ++ [tlv])
        (by rw [length_append, length_singleton]; omega)
      refine ⟨laps, ?_, ?_, few'⟩
      · rw [dropped, append_assoc]
        rfl
      · rw [length_append, length_singleton] at lengths
        rw [length_cons]
        omega

theorem wpsAddTlv_valid (valid : tlv.Valid) (wps : WpsData) :
    (wpsAddTlv wps tlv).getD wps = if wps.length = 255 then [] else wps ++ [tlv] := by
  obtain ⟨set, matched, -⟩ := valid.matched
  rw [wpsAddTlv, matched]
  rfl

/-! ## Lists of attributes -/

theorem wpsWriteWpsData_cons (tlv : Tlv) (rest : WpsData) :
    wpsWriteWpsData (tlv :: rest) = tlv.write ++ wpsWriteWpsData rest :=
  flatMap_cons

theorem wpsWriteWpsData_length_pos {wps : WpsData} (some : wps ≠ []) :
    4 ≤ (wpsWriteWpsData wps).length := by
  match wps, some with
  | tlv :: rest, _ =>
    rw [wpsWriteWpsData_cons, length_append, Tlv.write_length]
    omega

def lastBytes : Bytes :=
  match tlvs.getLast? with
  | none => tail
  | some tlv => tlv.value.bytes ++ tail

/-- The parser reads attributes up to a short rest, if the last of them is not
the end of the buffer. -/
theorem parseTlvs_write (short : tail.length ≤ 4) (tlvs : WpsData) :
    (∀ tlv ∈ tlvs, tlv.Valid) → (tlvs = [] ∨ lastBytes tlvs tail ≠ []) →
    ∀ (rounds : Nat) (wps : WpsData), tlvs.length ≤ rounds →
      parseTlvs rounds (wpsWriteWpsData tlvs ++ tail) wps = some (addTlvs wps tlvs) := by
  induction tlvs with
  | nil =>
    intro valid last rounds wps enough
    cases rounds with
    | zero => rfl
    | succ rounds =>
      rw [parseTlvs, if_pos]
      · rfl
      · exact short
  | cons tlv rest ih =>
    intro valid last rounds wps enough
    have here := valid tlv mem_cons_self
    match rounds, enough with
    | rounds + 1, enough =>
      have more : tlv.value.bytes ++ (wpsWriteWpsData rest ++ tail) ≠ [] := by
        cases rest with
        | nil =>
          rcases last with last | last
          · cases last
          · exact last
        | cons next later =>
          intro empty
          have lengths := congrArg List.length empty
          have long := wpsWriteWpsData_length_pos (cons_ne_nil next later)
          rw [length_append, length_append, length_nil] at lengths
          omega
      have long : ¬(wpsWriteWpsData (tlv :: rest) ++ tail).length ≤ 4 := by
        have positive := length_pos_iff.mpr more
        rw [length_append, length_append] at positive
        rw [wpsWriteWpsData_cons, append_assoc, length_append, length_append,
          Tlv.write_length]
        omega
      have behind : (tlv.write ++ (wpsWriteWpsData rest ++ tail)).drop (4 + tlv.length) =
          wpsWriteWpsData rest ++ tail := by
        rw [← here.write_length, drop_left]
      have later : rest = [] ∨ lastBytes rest tail ≠ [] := by
        cases rest with
        | nil => exact Or.inl rfl
        | cons next later =>
          rcases last with last | last
          · cases last
          · rw [lastBytes, getLast?_cons_cons] at last
            exact Or.inr last
      rw [parseTlvs, if_neg long, wpsWriteWpsData_cons, append_assoc,
        wpsGetTlv_write here _ more]
      simp only [behind, wpsAddTlv_valid here]
      rw [ih (fun other mem => valid other (mem_cons_of_mem _ mem)) later rounds _
        (Nat.le_of_succ_le_succ enough)]
      rfl

/-- How many attributes a buffer has by the lengths in their headers, and what
is left behind them. -/
@[grind =] def attributes (buf : Bytes) : Nat × Bytes :=
  match buf with
  | _ :: _ :: l0 :: l1 :: rest =>
    if rest = [] then (0, buf)
    else
      let (count, left) := attributes (rest.drop (be16 l0 l1))
      (count + 1, left)
  | buf => (0, buf)
termination_by buf.length
decreasing_by
  simp only [length_cons, length_drop]
  omega

theorem attributes_short (buf : Bytes) (short : buf.length ≤ 4) : attributes buf = (0, buf) := by
  unfold attributes
  split
  · rename_i t0 t1 l0 l1 rest
    have empty : rest = [] := by
      apply length_eq_zero_iff.mp
      simp only [length_cons] at short
      omega
    rw [if_pos empty]
  · rfl

theorem attributes_write (valid : tlv.Valid) (rest : Bytes)
    (more : tlv.value.bytes ++ rest ≠ []) :
    attributes (tlv.write ++ rest) = ((attributes rest).1 + 1, (attributes rest).2) := by
  obtain ⟨set, matched, -⟩ := valid.matched
  obtain ⟨-, lengthSmall⟩ := wpsMatchTlv_small matched
  have behind : (tlv.value.bytes ++ rest).drop tlv.length = rest := by
    rw [← valid.sized, drop_left]
  simp only [Tlv.write, putBe16, cons_append, nil_append]
  rw [attributes, if_neg more, be16_putBe16 _ lengthSmall, behind]

theorem parseTlvs_spec (rounds : Nat) : ∀ (buf : Bytes) (wps after : WpsData),
    buf.length ≤ rounds → parseTlvs rounds buf wps = some after →
    ∃ tlvs tail, (∀ tlv ∈ tlvs, tlv.Valid) ∧ buf = wpsWriteWpsData tlvs ++ tail ∧
      attributes buf = (tlvs.length, tail) ∧ after = addTlvs wps tlvs := by
  induction rounds with
  | zero =>
    intro buf wps after enough parsed
    cases parsed
    have empty : buf = [] := length_eq_zero_iff.mp (Nat.le_zero.mp enough)
    subst empty
    exact ⟨[], [], by simp, rfl, attributes_short [] (Nat.zero_le 4), rfl⟩
  | succ rounds ih =>
    intro buf wps after enough parsed
    rw [parseTlvs] at parsed
    by_cases short : buf.length ≤ 4
    · rw [if_pos short] at parsed
      cases parsed
      exact ⟨[], buf, by simp, rfl, attributes_short buf short, rfl⟩
    · rw [if_neg short] at parsed
      cases got : wpsGetTlv buf with
      | none =>
        rw [got] at parsed
        cases parsed
      | some tlv =>
        simp only [got] at parsed
        obtain ⟨valid, split⟩ := wpsGetTlv_spec got
        rw [wpsAddTlv_valid valid] at parsed
        have shorter : (buf.drop (4 + tlv.length)).length ≤ rounds := by
          rw [length_drop]
          omega
        obtain ⟨tlvs, tail, all, rest, counted, added⟩ := ih _ _ after shorter parsed
        have more : tlv.value.bytes ++ buf.drop (4 + tlv.length) ≠ [] := by
          intro empty
          have lengths := congrArg List.length split
          rw [length_append, Tlv.write_length, Nat.add_assoc, ← length_append,
            empty] at lengths
          simp only [length_nil] at lengths
          omega
        refine ⟨tlv :: tlvs, tail, ?_, ?_, ?_, ?_⟩
        · intro other mem
          rcases mem_cons.mp mem with rfl | mem
          · exact valid
          · exact all other mem
        · rw [wpsWriteWpsData_cons, append_assoc, ← rest]
          exact split
        · rw [split, attributes_write valid _ more, counted]
          rfl
        · exact added

theorem wpsWriteWpsData_append (front back : WpsData) :
    wpsWriteWpsData (front ++ back) = wpsWriteWpsData front ++ wpsWriteWpsData back :=
  flatMap_append

theorem length_le_write (wps : WpsData) : wps.length ≤ (wpsWriteWpsData wps).length := by
  induction wps with
  | nil => exact Nat.le_refl _
  | cons tlv rest ih =>
    rw [wpsWriteWpsData_cons, length_append, Tlv.write_length, length_cons]
    omega

theorem lastBytes_le (nonempty : tlvs ≠ []) :
    (lastBytes tlvs tail).length + 4 ≤ (wpsWriteWpsData tlvs ++ tail).length := by
  rcases eq_nil_or_concat tlvs with rfl | ⟨front, last, rfl⟩
  · exact absurd rfl nonempty
  · rw [concat_eq_append, lastBytes, getLast?_concat, wpsWriteWpsData_append]
    simp only [length_append, wpsWriteWpsData_cons, Tlv.write_length]
    omega

theorem wpsParseWpsData_write {wps : WpsData} (valid : ∀ tlv ∈ wps, tlv.Valid)
    (few : wps.length ≤ 255) (tail : Bytes) (short : tail.length ≤ 4)
    (nonempty : wps ≠ []) (last : lastBytes wps tail ≠ []) :
    wpsParseWpsData (wpsWriteWpsData wps ++ tail) = some wps := by
  have rounds : wps.length ≤ (wpsWriteWpsData wps ++ tail).length := by
    have bound := length_le_write wps
    rw [length_append]
    omega
  have long : ¬(wpsWriteWpsData wps ++ tail).length ≤ 4 := by
    have bound := lastBytes_le wps tail nonempty
    have positive := length_pos_iff.mpr last
    omega
  rw [wpsParseWpsData, if_neg long, parseTlvs_write tail short wps valid (Or.inr last) _ [] rounds,
    addTlvs_few wps [] (by rw [length_nil]; omega), nil_append]

/-! ## Building a list -/

inductive Call where
  | set (type : Nat) (source : Source)
  | remove (type : Nat)

@[grind =] def build (bigEndian : Bool) (wps : WpsData) : List Call → Option WpsData
  | [] => some wps
  | .set type source :: rest =>
    (wpsSetValue bigEndian wps type source).bind (build bigEndian · rest)
  | .remove type :: rest => (wpsRemoveValue wps type).bind (build bigEndian · rest)

/-- The calls of `wps_set_value` whose attributes have not been removed. -/
@[grind =] def remaining (before : List (Nat × Source)) : List Call → List (Nat × Source)
  | [] => before
  | .set type source :: rest => remaining (before ++ [(type, source)]) rest
  | .remove type :: rest => remaining (before.eraseP (·.1 == type)) rest

def Source.size : Source → Nat
  | .u8 _ => 1
  | .u16 _ => 2
  | .u32 _ => 4
  | .bytes value => value.length

def valueAs (valueType : ValType) : Source → Value
  | .u8 value => if valueType = .bool then .bool value else .u8 value
  | .u16 value => .u16 value
  | .u32 value => .u32 value
  | .bytes value => .ptr value

def given (call : Nat × Source) : Tlv where
  type := call.1
  length := call.2.size
  value := valueAs (((wpsGetTlvSet call.1).map TlvSet.valueType).getD .ptr) call.2

def Source.narrowed (bigEndian : Bool) : Source → Source
  | .u8 value => .u8 value
  | .u16 value => .u16 value
  | .u32 value =>
    .u32 (UInt32.ofNat (if bigEndian then value.toNat / 65536 else value.toNat % 65536))
  | .bytes value => .bytes (value.take (value.length % 65536))

/-- A value that `wps_set_value` takes as it is. -/
def Source.Kept (bigEndian : Bool) : Source → Prop
  | .u8 _ => True
  | .u16 _ => True
  | .u32 value => if bigEndian then value = 0 else value.toNat < 65536
  | .bytes value => value.length < 65536

instance (bigEndian : Bool) : (source : Source) → Decidable (source.Kept bigEndian)
  | .u8 _ => isTrue True.intro
  | .u16 _ => isTrue True.intro
  | .u32 value => inferInstanceAs (Decidable (if bigEndian then value = 0 else value.toNat < 65536))
  | .bytes value => inferInstanceAs (Decidable (value.length < 65536))

theorem Source.narrowed_eq_self (bigEndian : Bool) (source : Source) :
    source.narrowed bigEndian = source ↔ source.Kept bigEndian := by
  cases source with
  | u8 value => simp only [narrowed, Kept]
  | u16 value => simp only [narrowed, Kept]
  | u32 value =>
    have small : value.toNat < 4294967296 := value.toNat_lt
    simp only [narrowed, Kept, Source.u32.injEq, ← UInt32.toNat_inj]
    cases bigEndian with
    | true =>
      simp only [if_true, UInt32.toNat_ofNat', UInt32.toNat_zero]
      omega
    | false =>
      simp only [Bool.false_eq_true, if_false, UInt32.toNat_ofNat']
      omega
  | bytes value =>
    simp only [narrowed, Kept, Source.bytes.injEq, take_eq_self_iff]
    omega

theorem wpsSetValue_spec {source : Source}
    (set : wpsSetValue bigEndian wps type source = some after) :
    (given (type, source.narrowed bigEndian)).Valid ∧
      after = if wps.length = 255 then []
        else wps ++ [given (type, source.narrowed bigEndian)] := by
  unfold wpsSetValue at set
  cases found : wpsGetTlvSet type with
  | none =>
    rw [found] at set
    cases set
  | some entry =>
    obtain ⟨mem, rfl⟩ := wpsGetTlvSet_spec found
    have add : ∀ tlv : Tlv, wpsAddTlv wps tlv = some after → tlv.type = entry.type →
        tlv.value.kind = entry.valueType → tlv.value.bytes.length = tlv.length →
        tlv.Valid ∧ after = if wps.length = 255 then [] else wps ++ [tlv] := by
      intro tlv added sameType kind sized
      unfold wpsAddTlv at added
      split at added
      · cases added
      · rename_i matching matched
        cases added
        obtain ⟨mem', typeEq, -⟩ := wpsMatchTlv_spec matched
        have kinds := tlvSets_kind entry mem matching mem' (sameType.symm.trans typeEq.symm)
        exact ⟨⟨⟨matching, matched, kind.trans kinds⟩, sized⟩, rfl⟩
    have spelled : ∀ source : Source, given (entry.type, source) =
        ⟨entry.type, source.size, valueAs entry.valueType source⟩ := by
      intro source
      rw [given, found]
      rfl
    rw [spelled]
    simp only [found] at set
    split at set
    · rename_i value kind
      rw [kind]
      exact add ⟨entry.type, 1, .bool value⟩ set rfl kind.symm rfl
    · rename_i value kind
      rw [kind]
      exact add ⟨entry.type, 1, .u8 value⟩ set rfl kind.symm rfl
    · rename_i value kind
      exact add ⟨entry.type, 2, .u16 value⟩ set rfl kind.symm rfl
    · rename_i value kind
      exact add ⟨entry.type, 4, .u32 _⟩ set rfl kind.symm rfl
    · rename_i value kind
      have length : (value.take (value.length % 65536)).length = value.length % 65536 := by
        rw [length_take]
        omega
      have stored := add ⟨entry.type, value.length % 65536, .ptr (value.take
        (value.length % 65536))⟩ set rfl kind.symm length
      simp only [Source.narrowed, Source.size, valueAs, length]
      exact stored
    · cases set

theorem wpsRemoveValue_spec (removed : wpsRemoveValue wps type = some after) :
    type ∈ wps.map Tlv.type ∧ after = wps.eraseP (·.type == type) := by
  unfold wpsRemoveValue at removed
  split at removed
  · cases removed
  · rename_i tlv found
    cases removed
    have mem := mem_of_find?_eq_some found
    have same := find?_some found
    rw [beq_iff_eq] at same
    exact ⟨mem_map.mpr ⟨tlv, mem, same⟩, rfl⟩

/-- How the attributes and the remaining calls belong together: every 256
attributes have been lost. -/
structure Built (bigEndian : Bool) (calls : List (Nat × Source)) (wps : WpsData) : Prop where
  valid : ∀ tlv ∈ wps, tlv.Valid
  few : wps.length ≤ 255
  types : (wps.map Tlv.type).Sublist (calls.map Prod.fst)
  counted : ∃ laps, wps.length + 256 * laps = calls.length ∧
    (laps = 0 → wps = calls.map fun call => given (call.1, call.2.narrowed bigEndian))

theorem map_eraseP_key {α : Type} (key : α → Nat) (entries : List α) (type : Nat) :
    (entries.eraseP (key · == type)).map key = (entries.map key).erase type := by
  rw [erase_eq_eraseP', eraseP_map]
  rfl

theorem length_eraseP_key {α : Type} (key : α → Nat) (entries : List α) (type : Nat)
    (mem : type ∈ entries.map key) :
    (entries.eraseP (key · == type)).length + 1 = entries.length := by
  obtain ⟨entry, inside, rfl⟩ := mem_map.mp mem
  have positive := length_pos_of_mem inside
  rw [length_eraseP_of_mem inside (beq_self_eq_true (key entry))]
  omega

theorem Built.set {source : Source} (built : Built bigEndian calls wps)
    (set : wpsSetValue bigEndian wps type source = some after) :
    Built bigEndian (calls ++ [(type, source)]) after := by
  obtain ⟨valid, rfl⟩ := wpsSetValue_spec set
  obtain ⟨laps, lengths, same⟩ := built.counted
  have few := built.few
  by_cases full : wps.length = 255
  · rw [if_pos full]
    refine ⟨by simp, by simp, by simp, laps + 1, ?_, ?_⟩
    · rw [length_append, length_nil, length_singleton]
      omega
    · intro zero
      omega
  · rw [if_neg full]
    refine ⟨?_, ?_, ?_, laps, ?_, ?_⟩
    · intro tlv mem
      rcases mem_append.mp mem with mem | mem
      · exact built.valid tlv mem
      · rw [mem_singleton] at mem
        rw [mem]
        exact valid
    · rw [length_append, length_singleton]
      omega
    · rw [map_append, map_append]
      exact built.types.append (List.Sublist.refl [type])
    · rw [length_append, length_append, length_singleton, length_singleton]
      omega
    · intro zero
      rw [map_append, same zero]
      rfl

theorem Built.remove (built : Built bigEndian calls wps)
    (removed : wpsRemoveValue wps type = some after) :
    Built bigEndian (calls.eraseP (·.1 == type)) after := by
  obtain ⟨mem, rfl⟩ := wpsRemoveValue_spec removed
  obtain ⟨laps, lengths, same⟩ := built.counted
  have few := built.few
  have called : type ∈ calls.map Prod.fst := built.types.subset mem
  have shorter := length_eraseP_key Tlv.type wps type mem
  have shorter' := length_eraseP_key Prod.fst calls type called
  refine ⟨?_, ?_, ?_, laps, ?_, ?_⟩
  · intro tlv inside
    exact built.valid tlv (mem_of_mem_eraseP inside)
  · omega
  · rw [map_eraseP_key Tlv.type, map_eraseP_key Prod.fst]
    exact built.types.erase type
  · omega
  · intro zero
    rw [same zero, eraseP_map]
    rfl

theorem build_built (calls : List Call) :
    ∀ (before : List (Nat × Source)) (wps after : WpsData), Built bigEndian before wps →
      build bigEndian wps calls = some after → Built bigEndian (remaining before calls) after := by
  induction calls with
  | nil =>
    intro before wps after built done
    cases done
    exact built
  | cons call rest ih =>
    intro before wps after built done
    cases call with
    | set type source =>
      rw [build] at done
      obtain ⟨next, set, done⟩ := bind_eq_some_iff.mp done
      exact ih _ next after (built.set set) done
    | remove type =>
      rw [build] at done
      obtain ⟨next, removed, done⟩ := bind_eq_some_iff.mp done
      exact ih _ next after (built.remove removed) done

/-! ## Both directions -/

/-- What is built comes back from the parser, with the types, lengths and
values of the remaining calls, and every type has its first value. -/
structure RoundTrips (calls : List (Nat × Source)) (wps : WpsData) : Prop where
  parsed : wpsParseWpsData (wpsWriteWpsData wps) = some wps
  kept : wps = calls.map given
  first : ∀ type call, calls.find? (·.1 == type) = some call →
    ∀ capacity, call.2.size ≤ capacity →
      wpsGetValue wps type (some capacity) = some (given call).value

/-- The attributes fit the counter and the buffer, and every value fits. -/
structure Transferable (bigEndian : Bool) (calls : List (Nat × Source)) : Prop where
  few : calls.length ≤ 255
  last : ∀ call, calls.getLast? = some call → call.2.size ≠ 0
  kept : ∀ call ∈ calls, call.2.Kept bigEndian

theorem given_injective {source other : Source}
    (same : given (type, source) = given (type, other)) : source = other := by
  have values := congrArg Tlv.value same
  simp only [given] at values
  cases source with
  | _ =>
    cases other with
    | _ =>
      simp only [valueAs] at values
      grind

theorem valueAs_bytes (valueType : ValType) (source : Source) :
    (valueAs valueType source).bytes.length = source.size := by
  cases source with
  | u8 value =>
    simp only [valueAs]
    split
    · rfl
    · rfl
  | u16 value => rfl
  | u32 value => rfl
  | bytes value => rfl

theorem wpsTlvGetValue_given (call : Nat × Source) (capacity : Nat)
    (room : call.2.size ≤ capacity) :
    wpsTlvGetValue (given call) (some capacity) = some (given call).value := by
  unfold wpsTlvGetValue
  split
  · rename_i none
    cases none
  · rename_i value length valueEq lengthEq
    cases lengthEq
    rw [if_neg, valueEq]
    exact Nat.not_lt.mpr room
  · rfl

theorem wpsParseWpsData_empty_last {front : WpsData}
    (valid : ∀ other ∈ front, other.Valid) (few : front.length ≤ 255)
    (empty : tlv.value.bytes = []) :
    wpsParseWpsData (wpsWriteWpsData (front ++ [tlv])) ≠ some (front ++ [tlv]) := by
  have four : tlv.write.length = 4 := by
    rw [Tlv.write_length, empty]
    rfl
  have written : wpsWriteWpsData (front ++ [tlv]) = wpsWriteWpsData front ++ tlv.write := by
    rw [wpsWriteWpsData_append, wpsWriteWpsData_cons]
    exact congrArg _ (append_nil _)
  rw [written]
  by_cases alone : front = []
  · subst alone
    have short : (wpsWriteWpsData [] ++ tlv.write).length ≤ 4 := Nat.le_of_eq four
    rw [wpsParseWpsData, if_pos short]
    intro same
    cases same
  · have last : lastBytes front tlv.write ≠ [] := by
      unfold lastBytes
      intro none
      have lengths := congrArg List.length none
      split at lengths
      · rw [four] at lengths
        cases lengths
      · rw [length_append, four] at lengths
        cases lengths
    rw [wpsParseWpsData_write valid few tlv.write (Nat.le_of_eq four) alone last]
    intro same
    have lengths := congrArg List.length (some.inj same)
    rw [length_append, length_singleton] at lengths
    omega

theorem build_round_trips {wps : WpsData}
    (built : Built bigEndian calls wps) (nonempty : calls ≠ []) :
    RoundTrips calls wps ↔ Transferable bigEndian calls := by
  obtain ⟨laps, lengths, same⟩ := built.counted
  have few := built.few
  constructor
  · intro trips
    have count : wps.length = calls.length := by
      have whole := congrArg List.length trips.kept
      rw [length_map] at whole
      exact whole
    refine ⟨by omega, ?_, ?_⟩
    · intro call last empty
      obtain ⟨front, rfl⟩ := getLast?_eq_some_iff.mp last
      have kept := trips.kept
      rw [map_append] at kept
      have parsed := trips.parsed
      rw [kept] at parsed
      refine wpsParseWpsData_empty_last ?_ ?_ ?_ parsed
      · intro other mem
        apply built.valid
        rw [kept]
        exact mem_append_left _ mem
      · have whole := congrArg List.length kept
        rw [length_append] at whole
        omega
      · apply length_eq_zero_iff.mp
        rw [given, valueAs_bytes]
        exact empty
    · intro call mem
      have zero : laps = 0 := by omega
      have stored := (same zero).symm.trans trips.kept
      rw [← Source.narrowed_eq_self]
      exact given_injective (map_inj_left.mp stored call mem)
  · intro transferable
    have bound := transferable.few
    have zero : laps = 0 := by omega
    have kept : wps = calls.map given := by
      rw [same zero]
      apply map_congr_left
      intro call mem
      rw [(Source.narrowed_eq_self bigEndian call.2).mpr (transferable.kept call mem)]
    refine ⟨?_, kept, ?_⟩
    · have some : wps ≠ [] := by
        rw [kept]
        intro none
        exact nonempty (map_eq_nil_iff.mp none)
      have last : lastBytes wps [] ≠ [] := by
        rw [kept, lastBytes, getLast?_map]
        cases final : calls.getLast? with
        | none => exact absurd (getLast?_eq_none_iff.mp final) nonempty
        | some call =>
          intro empty
          apply transferable.last call final
          have lengths := congrArg List.length empty
          simp only [map_some, given, length_append, valueAs_bytes] at lengths
          exact lengths
      have parsed := wpsParseWpsData_write built.valid few [] (Nat.zero_le 4) some last
      rw [append_nil] at parsed
      exact parsed
    · intro type call found capacity room
      have here : wpsFind wps type = some (given call) := by
        rw [wpsFind, kept, find?_map]
        exact congrArg (Option.map given) found
      rw [wpsGetValue, here]
      exact wpsTlvGetValue_given call capacity room

theorem parse_write_whole {buf : Bytes} {wps : WpsData}
    (parsed : wpsParseWpsData buf = some wps) :
    wpsWriteWpsData wps = buf ↔ (attributes buf).1 ≤ 255 ∧ (attributes buf).2 = [] := by
  unfold wpsParseWpsData at parsed
  split at parsed
  · cases parsed
  · obtain ⟨tlvs, tail, valid, split, counted, rfl⟩ :=
      parseTlvs_spec buf.length buf [] wps (Nat.le_refl _) parsed
    rw [counted]
    constructor
    · intro same
      obtain ⟨laps, dropped, lengths, few⟩ := addTlvs_drop tlvs [] (Nat.zero_le _)
      rw [length_nil, Nat.zero_add] at lengths
      rw [nil_append] at dropped
      -- the attributes that were lost would have to be empty
      have front := length_le_write (tlvs.take (256 * laps))
      have whole := wpsWriteWpsData_append (tlvs.take (256 * laps)) (tlvs.drop (256 * laps))
      rw [take_append_drop] at whole
      have total := congrArg List.length split
      rw [← same, dropped, whole, length_append, length_append] at total
      rw [length_take] at front
      have none : laps = 0 := by omega
      have empty : tail.length = 0 := by omega
      exact ⟨by simp only; omega, length_eq_zero_iff.mp empty⟩
    · rintro ⟨few, empty⟩
      have all := addTlvs_few tlvs [] (by simp only [length_nil]; simp only at few; omega)
      simp only at empty
      rw [all, nil_append, split, empty, append_nil]

/-- Attributes that were set come back from the parser if and only if there are
at most 255 of them, the last is not empty and every value fits; a buffer that
was parsed comes back from the writer if and only if it ends with one of its
at most 255 attributes. -/
theorem attributes_round_trip (bigEndian : Bool) (calls : List Call) (buf : Bytes)
    (wps : WpsData) :
    (build bigEndian [] calls = some wps → remaining [] calls ≠ [] →
      (RoundTrips (remaining [] calls) wps ↔ Transferable bigEndian (remaining [] calls))) ∧
    (wpsParseWpsData buf = some wps →
      (wpsWriteWpsData wps = buf ↔ (attributes buf).1 ≤ 255 ∧ (attributes buf).2 = [])) := by
  constructor
  · intro done nonempty
    have start : Built bigEndian [] [] := ⟨by simp, by simp, by simp, 0, rfl, fun _ => rfl⟩
    exact build_round_trips (build_built calls [] [] wps start done) nonempty
  · intro parsed
    exact parse_write_whole parsed

/-- Two attributes that come back, and a buffer that does. -/
theorem attributes_round_trip_two :
    RoundTrips [(WpsType.version, .u8 0x10), (WpsType.nwKey, .bytes [1, 2])]
        [⟨WpsType.version, 1, .u8 0x10⟩, ⟨WpsType.nwKey, 2, .ptr [1, 2]⟩] ∧
      wpsWriteWpsData [⟨WpsType.version, 1, .u8 0x10⟩] = [0x10, 0x4A, 0, 1, 0x10] := by
  constructor
  · let calls : List Call := [.set WpsType.version (.u8 0x10), .set WpsType.nwKey (.bytes [1]),
      .remove WpsType.nwKey, .set WpsType.nwKey (.bytes [1, 2])]
    have done : build true [] calls =
        some [⟨WpsType.version, 1, .u8 0x10⟩, ⟨WpsType.nwKey, 2, .ptr [1, 2]⟩] := by
      decide
    refine ((attributes_round_trip true calls [] _).1 done (by decide)).mpr
      ⟨by decide, ?_, by decide⟩
    intro call last
    cases last
    decide
  · exact ((attributes_round_trip true [] [0x10, 0x4A, 0, 1, 0x10] _).2 (by decide)).mpr
      (by decide +kernel)

/-- An empty key at the end is lost, half of a number of 32 bits is lost, and
so is a byte behind the last attribute. -/
theorem attributes_lost :
    (build false [] [.set WpsType.version (.u8 0x10), .set WpsType.nwKey (.bytes [])] =
        some [⟨WpsType.version, 1, .u8 0x10⟩, ⟨WpsType.nwKey, 0, .ptr []⟩] ∧
      ¬RoundTrips [(WpsType.version, .u8 0x10), (WpsType.nwKey, .bytes [])]
        [⟨WpsType.version, 1, .u8 0x10⟩, ⟨WpsType.nwKey, 0, .ptr []⟩]) ∧
    (build false [] [.set WpsType.osVersion (.u32 0x12345678)] =
        some [⟨WpsType.osVersion, 4, .u32 0x5678⟩] ∧
      ¬RoundTrips [(WpsType.osVersion, .u32 0x12345678)] [⟨WpsType.osVersion, 4, .u32 0x5678⟩]) ∧
    (wpsParseWpsData [0x10, 0x4A, 0, 1, 0x10, 0xFF] = some [⟨WpsType.version, 1, .u8 0x10⟩] ∧
      wpsWriteWpsData [⟨WpsType.version, 1, .u8 0x10⟩] ≠ [0x10, 0x4A, 0, 1, 0x10, 0xFF]) := by
  refine ⟨⟨by decide, ?_⟩, ⟨by decide, ?_⟩, by decide, by decide⟩
  · intro trips
    exact absurd trips.parsed (by decide)
  · intro trips
    exact absurd trips.kept (by decide)

end AthApps.Wps
