import AthApps.Lib.Limbs
import AthApps.Wapi.GroupKey

/-!
# The identifiers of announcements

`update_gnonce` counts the announcements to all stations in four words.  The
carry of `add` is read off the top bits; the words are a number modulo `2 ^ 128`,
and `msk_rekey_handle` stops to announce when the higher half of it is used up.
-/

set_option autoImplicit false

namespace AthApps.Wapi

open AthApps.Lib List

/-- One turn of the loop of `add`: the sum and the next `carry`. -/
def addWord (a bb carry : UInt32) : UInt32 × UInt32 :=
  let ca1 := a &&& 0x80000000
  let ca2 := bb &&& 0x80000000
  let a := a + (bb + carry)
  let ca3 := a &&& 0x80000000
  (a, if ca1 = 0x80000000 ∧ ca2 = 0x80000000 then 1 else if ca1 ≠ ca2 ∧ ca3 = 0 then 1 else 0)

def addLoop (b : UInt32) : List UInt32 → List UInt32 × UInt32 × UInt32
  | [] => ([], b, 0)
  | a :: rest =>
    let (words, bb, carry) := addLoop b rest
    let (a, carry) := addWord a bb carry
    (a :: words, 0, carry)

/-- `add` on an array of which `len` words are the number. -/
def add (a : List UInt32) (b : UInt32) (len : Nat) : List UInt32 :=
  (addLoop b (a.take len)).1 ++ a.drop len

/-- The top bits tell the carry, if the second operand takes the first one without overflow. -/
theorem addWord_value (a bb carry : UInt32) (one : carry.toNat ≤ 1)
    (fits : bb.toNat = 0 ∨ carry.toNat = 0) :
    (addWord a bb carry).1.toNat + 2 ^ 32 * (addWord a bb carry).2.toNat =
      a.toNat + (bb.toNat + carry.toNat) ∧ (addWord a bb carry).2.toNat ≤ 1 := by
  have smallA := a.toNat_lt
  have smallB := bb.toNat_lt
  have operand : (bb + carry).toNat = bb.toNat + carry.toNat := by
    rw [UInt32.toNat_add]
    omega
  have sum : (a + (bb + carry)).toNat = (a.toNat + (bb.toNat + carry.toNat)) % 2 ^ 32 := by
    rw [UInt32.toNat_add, operand]
  have topA := topBit_eq_zero a
  have topB := topBit_eq_zero bb
  have topSum := topBit_eq_zero (a + (bb + carry))
  rw [sum] at topSum
  simp only [addWord, sum]
  rcases topBit_cases a with zeroA | oneA
  · have lowA := topA.mp zeroA
    rcases topBit_cases bb with zeroB | oneB
    · have lowB := topB.mp zeroB
      simp only [zeroA, zeroB]
      change _ + 2 ^ 32 * 0 = _ ∧ 0 ≤ 1
      omega
    · have highB : ¬bb.toNat < 2 ^ 31 := fun low => by simp [topB.mpr low] at oneB
      simp only [zeroA, oneB]
      by_cases zeroSum : a + (bb + carry) &&& 0x80000000 = 0
      · have lowSum := topSum.mp zeroSum
        rw [if_neg (by decide), if_pos ⟨by decide, zeroSum⟩]
        change _ + 2 ^ 32 * 1 = _ ∧ 1 ≤ 1
        omega
      · have highSum := mt topSum.mpr zeroSum
        rw [if_neg (by decide), if_neg (fun both => zeroSum both.2)]
        change _ + 2 ^ 32 * 0 = _ ∧ 0 ≤ 1
        omega
  · have highA : ¬a.toNat < 2 ^ 31 := fun low => by simp [topA.mpr low] at oneA
    rcases topBit_cases bb with zeroB | oneB
    · have lowB := topB.mp zeroB
      simp only [oneA, zeroB]
      by_cases zeroSum : a + (bb + carry) &&& 0x80000000 = 0
      · have lowSum := topSum.mp zeroSum
        rw [if_neg (by decide), if_pos ⟨by decide, zeroSum⟩]
        change _ + 2 ^ 32 * 1 = _ ∧ 1 ≤ 1
        omega
      · have highSum := mt topSum.mpr zeroSum
        rw [if_neg (by decide), if_neg (fun both => zeroSum both.2)]
        change _ + 2 ^ 32 * 0 = _ ∧ 0 ≤ 1
        omega
    · have highB : ¬bb.toNat < 2 ^ 31 := fun low => by simp [topB.mpr low] at oneB
      simp only [oneA, oneB, and_self, if_true]
      change _ + 2 ^ 32 * 1 = _ ∧ 1 ≤ 1
      omega

/-- What the loop has not stored yet is what goes into the next word. -/
structure Carried (b : UInt32) (words : List UInt32) (result : List UInt32 × UInt32 × UInt32) :
    Prop where
  length : result.1.length = words.length
  value : limbs result.1 + 2 ^ (32 * words.length) * (result.2.1.toNat + result.2.2.toNat) =
    limbs words + b.toNat
  one : result.2.2.toNat ≤ 1
  fits : result.2.1.toNat = 0 ∨ result.2.2.toNat = 0

variable (b : UInt32) (words : List UInt32)

theorem addLoop_carried : Carried b words (addLoop b words) := by
  induction words with
  | nil =>
    refine ⟨rfl, ?_, Nat.zero_le 1, Or.inr rfl⟩
    rw [addLoop, length_nil, Nat.mul_zero, Nat.pow_zero, Nat.one_mul]
    rfl
  | cons a rest ih =>
    obtain ⟨value, one⟩ := addWord_value a _ _ ih.one ih.fits
    refine ⟨by simp [addLoop, ih.length], ?_, one, Or.inl rfl⟩
    have carried := ih.value
    have lengths := ih.length
    rw [addLoop]
    dsimp only
    generalize addWord a (addLoop b rest).2.1 (addLoop b rest).2.2 = turn at value ⊢
    generalize addLoop b rest = loop at carried value lengths ⊢
    have zero : (0 : UInt32).toNat = 0 := rfl
    rw [limbs, limbs, lengths, Nat.add_assoc (a.toNat * _), ← carried, zero, Nat.zero_add,
      length_cons, Nat.mul_add, Nat.mul_one, Nat.pow_add]
    calc turn.1.toNat * 2 ^ (32 * rest.length) + limbs loop.1 +
          2 ^ (32 * rest.length) * 2 ^ 32 * turn.2.toNat
        = (turn.1.toNat + 2 ^ 32 * turn.2.toNat) * 2 ^ (32 * rest.length) + limbs loop.1 := by ring
      _ = _ := by rw [value]; ring

theorem addLoop_limbs :
    limbs (addLoop b words).1 = (limbs words + b.toNat) % 2 ^ (32 * words.length) := by
  have carried := addLoop_carried b words
  have below := limbs_lt (addLoop b words).1
  rw [carried.length] at below
  rw [← carried.value, Nat.add_mul_mod_self_left, Nat.mod_eq_of_lt below]

/-- `add` is addition on the first `len` words and leaves the others alone. -/
theorem add_limbs {a : List UInt32} {len : Nat} (b : UInt32) (inside : len ≤ a.length) :
    limbs ((add a b len).take len) = (limbs (a.take len) + b.toNat) % 2 ^ (32 * len) ∧
      (add a b len).drop len = a.drop len := by
  have front : (a.take len).length = len := length_take_of_le inside
  have stored : (addLoop b (a.take len)).1.length = len :=
    (addLoop_carried b (a.take len)).length.trans front
  constructor
  · rw [add, take_left' stored, addLoop_limbs, front]
  · rw [add, drop_left' stored]

theorem updateGnonce_length (gnonce : List UInt32) :
    (updateGnonce gnonce).length = gnonce.length := by
  induction gnonce with
  | nil => rfl
  | cons word rest ih =>
    rw [updateGnonce]
    split
    · simp
    · rw [length_cons, length_cons, ih]

theorem limbs_zeros : limbs (words.map fun _ => 0) = 0 := by
  induction words with
  | nil => rfl
  | cons word rest ih =>
    have zero : (0 : UInt32).toNat = 0 := rfl
    rw [map_cons, limbs, ih, zero, Nat.zero_mul]

theorem updateGnonce_limbs (gnonce : List UInt32) :
    limbs (updateGnonce gnonce) = (limbs gnonce + 1) % 2 ^ (32 * gnonce.length) := by
  induction gnonce with
  | nil => exact (Nat.mod_one _).symm
  | cons word rest ih =>
    have below := limbs_lt rest
    have power : 2 ^ (32 * (word :: rest).length) = 2 ^ (32 * rest.length) * 2 ^ 32 := by
      rw [length_cons, Nat.mul_add, Nat.mul_one, Nat.pow_add]
    rw [updateGnonce, power]
    split
    next ones =>
      have full := (limbs_ones rest).mp ones
      have one : (word + 1).toNat = (word.toNat + 1) % 2 ^ 32 := UInt32.toNat_add word 1
      rw [limbs, limbs_zeros, length_map, one, Nat.add_zero, limbs, Nat.add_assoc, full,
        ← Nat.succ_mul, Nat.mul_comm word.toNat.succ, Nat.mul_mod_mul_left, Nat.mul_comm]
    next other =>
      have room := mt (limbs_ones rest).mpr other
      have whole := limbs_lt (word :: updateGnonce rest)
      rw [length_cons, updateGnonce_length, ← length_cons (a := word), power] at whole
      have next : limbs (updateGnonce rest) = limbs rest + 1 := by
        rw [ih, Nat.mod_eq_of_lt (by omega)]
      rw [limbs, updateGnonce_length, next, ← Nat.add_assoc] at whole ⊢
      exact (Nat.mod_eq_of_lt whole).symm

variable {gnonce : List UInt32}

theorem updateGnonce_eq_add (four : gnonce.length = 4) : updateGnonce gnonce = add gnonce 1 4 := by
  have whole : gnonce.take 4 = gnonce := take_of_length_le (by omega)
  have none : gnonce.drop 4 = [] := drop_of_length_le (by omega)
  rw [add, whole, none, append_nil]
  apply limbs_injective
  · rw [updateGnonce_length, (addLoop_carried 1 gnonce).length]
  · rw [updateGnonce_limbs, addLoop_limbs]
    rfl

/-- Before the higher half is used up there is a next number. -/
theorem room_of_not_overflow (room : overflow gnonce = false) :
    limbs gnonce + 1 ≠ 2 ^ (32 * gnonce.length) := by
  intro full
  have ones := (limbs_ones gnonce).mpr full
  rw [overflow, all_eq_false] at room
  obtain ⟨word, member, other⟩ := room
  exact other (all_eq_true.mp ones word (mem_of_mem_take member))

variable (cfg : Config)

theorem mskRekeyHandle_gnonce (input : Input) (vap : Vap) :
    (mskRekeyHandle cfg input vap).gnonce = updateGnonce vap.gnonce := by
  rw [mskRekeyHandle]
  dsimp only
  split
  · rfl
  · split
    · exact (announceLoop_frame cfg input _ _).2.2
    · exact (announceLoop_frame cfg input _ _).2.2

def Announcements (cfg : Config) (gnonce : List UInt32) (marks : List Mark) : Prop :=
  ∀ mark ∈ marks, ∃ msksa sta, mark = .sent (packMskAnnouncement cfg msksa gnonce sta rekeyGsn)

theorem announceLoop_past (input : Input) (slots : List Slot) (vap : Vap) (j : Slot) :
    ∃ marks, (announceLoop cfg input slots vap).past j = vap.past j ++ marks ∧
      Announcements cfg vap.gnonce marks := by
  induction slots generalizing vap with
  | nil =>
    refine ⟨[], ?_, by simp [Announcements]⟩
    rw [announceLoop, append_nil]
    split <;> rfl
  | cons i rest ih =>
    let told := announceTo cfg input.now vap.msksa vap.gnonce (input.sent i 0) (vap.table i)
    have here : ∃ marks, (vap.put i told).past j = vap.past j ++ marks ∧
        Announcements cfg vap.gnonce marks := by
      by_cases same : j = i
      · subst same
        refine ⟨told.2, by simp [Vap.put], ?_⟩
        intro mark member
        refine ⟨vap.msksa, vap.table j, ?_⟩
        simp only [told, announceTo] at member
        split at member
        · simpa using member
        · simpa using member
      · exact ⟨[], by simp [Vap.put, same], by simp [Announcements]⟩
    rw [announceLoop]
    split
    · dsimp only
      split
      · obtain ⟨marks, past, sent⟩ := ih
          { vap.put i told with groupNo := (vap.put i told).groupNo + 1 }
        obtain ⟨first, before, only⟩ := here
        refine ⟨first ++ marks, ?_, ?_⟩
        · rw [past]
          change (vap.put i told).past j ++ marks = _
          rw [before, append_assoc]
        · intro mark member
          rcases mem_append.mp member with early | late
          · exact only mark early
          · exact sent mark late
      · exact here
    · exact ih vap

/-- A call sends announcements of the new identifier, and none if it is used up. -/
theorem mskRekeyHandle_past (input : Input) (vap : Vap) (j : Slot) :
    ∃ marks, (mskRekeyHandle cfg input vap).past j = vap.past j ++ marks ∧
      Announcements cfg (updateGnonce vap.gnonce) marks ∧
      (overflow (updateGnonce vap.gnonce) = true → marks = []) := by
  rw [mskRekeyHandle]
  dsimp only
  split
  next => exact ⟨[], (append_nil _).symm, by simp [Announcements], fun _ => rfl⟩
  next room =>
    obtain ⟨marks, past, sent⟩ := announceLoop_past cfg input (List.finRange 32)
      { vap with
        gnonce := updateGnonce vap.gnonce
        msksa := { mskid := other vap.msksa.mskid, msk := input.msk }
        groupStatus := true
        groupNo := 0 } j
    refine ⟨marks, ?_, sent, fun full => absurd full room⟩
    split
    · exact past
    · exact past

def Announced (cfg : Config) (input : Input) (vap : Vap) (frame : Bytes) : Prop :=
  ∃ j marks, (mskRekeyHandle cfg input vap).past j = vap.past j ++ marks ∧ Mark.sent frame ∈ marks

def identifierOf (frame : Bytes) : Nat := Sha256.number (slice frame 43 16)

theorem number_dwords : (words.flatMap dword).length = 4 * words.length ∧
      Sha256.number (words.flatMap dword) = limbs words := by
  induction words with
  | nil => exact ⟨rfl, rfl⟩
  | cons word rest ih =>
    have small : word.toNat < 256 ^ 4 := word.toNat_lt
    have power : 256 ^ (4 * rest.length) = 2 ^ (32 * rest.length) := by
      rw [Nat.pow_mul, Nat.pow_mul]
    refine ⟨?_, ?_⟩
    · rw [flatMap_cons, length_append, ih.1, dword, Sha256.bigEndian_length, length_cons]
      omega
    · rw [flatMap_cons, Sha256.number_append, ih.1, ih.2, dword, Sha256.number_bigEndian,
        Nat.mod_eq_of_lt small, power, limbs]

theorem identifierOf_announcement (msksa : Msksa) (four : gnonce.length = 4) (sta : Sta) :
    identifierOf (packMskAnnouncement cfg msksa gnonce sta rekeyGsn) = limbs gnonce := by
  obtain ⟨length, value⟩ := number_dwords gnonce
  rw [← value, identifierOf]
  congr 1
  have gsn : rekeyGsn.length = 16 := rfl
  simp only [packMskAnnouncement, packMessage]
  have front : ∀ head flags addid gsn rest mic : Bytes,
      (head ++ (flags ++ addid ++ gsn)).length = 43 →
      slice (head ++ (flags ++ addid ++ gsn ++ gnonce.flatMap dword ++ [16] ++ rest ++ mic)) 43 16 =
        gnonce.flatMap dword := by
    intro head flags addid gsn rest mic exact
    have parts : head ++ (flags ++ addid ++ gsn ++ gnonce.flatMap dword ++ [16] ++ rest ++ mic) =
        head ++ (flags ++ addid ++ gsn) ++ (gnonce.flatMap dword ++ ([16] ++ rest ++ mic)) := by simp
    rw [parts, ← exact, slice_append_right, take_left' (by rw [length, four])]
  apply front
  simp [packHead_length, headLen, Config.addid, gsn]

theorem Announced.identifier {cfg : Config} {input : Input} {vap : Vap} {frame : Bytes}
    (sent : Announced cfg input vap frame) (four : vap.gnonce.length = 4) :
    overflow (updateGnonce vap.gnonce) = false ∧
      identifierOf frame = limbs (updateGnonce vap.gnonce) := by
  obtain ⟨j, marks, past, member⟩ := sent
  obtain ⟨others, same, only, none⟩ := mskRekeyHandle_past cfg input vap j
  have equal : marks = others := append_cancel_left (past.symm.trans same)
  subst equal
  constructor
  · apply Bool.eq_false_iff.mpr
    intro full
    rw [none full] at member
    exact absurd member (by simp)
  · obtain ⟨msksa, sta, built⟩ := only _ member
    rw [Mark.sent.inj built, identifierOf_announcement cfg msksa
      ((updateGnonce_length _).trans four) sta]

/-- The states and inputs of some calls.  What happens between two of them does not touch
the counter. -/
structure RekeyRun (cfg : Config) (calls : Nat) (vap : Nat → Vap) (input : Nat → Input) : Prop where
  four : (vap 0).gnonce.length = 4
  kept : ∀ k, k + 1 < calls → (vap (k + 1)).gnonce = (mskRekeyHandle cfg (input k) (vap k)).gnonce

section Runs

variable {cfg : Config} {calls : Nat} {vap : Nat → Vap} {input : Nat → Input}

theorem RekeyRun.counts (run : RekeyRun cfg calls vap input) {k : Nat} (inside : k < calls) :
    (vap k).gnonce.length = 4 ∧ limbs (vap k).gnonce = (limbs (vap 0).gnonce + k) % 2 ^ 128 := by
  induction k with
  | zero =>
    have below := limbs_lt (vap 0).gnonce
    rw [run.four] at below
    exact ⟨run.four, (Nat.mod_eq_of_lt below).symm⟩
  | succ k ih =>
    obtain ⟨four, value⟩ := ih (Nat.lt_of_succ_lt inside)
    rw [run.kept k inside, mskRekeyHandle_gnonce, updateGnonce_length, updateGnonce_limbs, four,
      value, Nat.mod_add_mod, Nat.add_assoc]
    exact ⟨rfl, rfl⟩

theorem RekeyRun.announces (run : RekeyRun cfg calls vap input) {k : Nat} (inside : k < calls) :
    limbs (mskRekeyHandle cfg (input k) (vap k)).gnonce =
      (limbs (vap 0).gnonce + k + 1) % 2 ^ 128 := by
  obtain ⟨four, value⟩ := run.counts inside
  rw [mskRekeyHandle_gnonce, updateGnonce_limbs, four, value, Nat.mod_add_mod]

theorem RekeyRun.increases (run : RekeyRun cfg calls vap input) {i j : Nat} (less : i < j)
    (inside : j < calls)
    (room : ∀ k ≤ j, overflow (mskRekeyHandle cfg (input k) (vap k)).gnonce = false) :
    limbs (mskRekeyHandle cfg (input i) (vap i)).gnonce <
      limbs (mskRekeyHandle cfg (input j) (vap j)).gnonce := by
  induction j with
  | zero => exact absurd less (Nat.not_lt_zero i)
  | succ j ih =>
    have here := run.announces (Nat.lt_of_succ_lt inside)
    have next := run.announces inside
    have four := (run.counts inside).1
    rw [run.kept j inside] at four
    have space := room_of_not_overflow (room j (Nat.le_succ j))
    have below := limbs_lt (mskRekeyHandle cfg (input j) (vap j)).gnonce
    rw [four] at space below
    have grows : limbs (mskRekeyHandle cfg (input j) (vap j)).gnonce <
        limbs (mskRekeyHandle cfg (input (j + 1)) (vap (j + 1))).gnonce := by
      rw [here] at space below ⊢
      rw [next]
      omega
    rcases Nat.lt_succ_iff_lt_or_eq.mp less with earlier | same
    · have before := ih earlier (Nat.lt_of_succ_lt inside)
        fun k le => room k (Nat.le_succ_of_le le)
      exact Nat.lt_trans before grows
    · rw [same]
      exact grows

theorem RekeyRun.distance (run : RekeyRun cfg calls vap input) {i j : Nat} (less : i < j)
    (inside : j < calls) {frame later : Bytes}
    (sent : Announced cfg (input i) (vap i) frame) (again : Announced cfg (input j) (vap j) later)
    (same : identifierOf frame = identifierOf later) : 2 ^ 128 ∣ j - i := by
  have insideFirst := Nat.lt_trans less inside
  have first := (sent.identifier (run.counts insideFirst).1).2
  have second := (again.identifier (run.counts inside).1).2
  rw [← mskRekeyHandle_gnonce cfg (input i), run.announces insideFirst] at first
  rw [← mskRekeyHandle_gnonce cfg (input j), run.announces inside] at second
  rw [first, second] at same
  omega

/-- The counter is a sum modulo `2 ^ 128`, the identifiers grow until the higher half is used
up, and announcements of the same identifier are a multiple of `2 ^ 128` calls apart. -/
theorem announcement_identifiers (run : RekeyRun cfg calls vap input) :
    (∀ (a : List UInt32) (b : UInt32) (len : Nat), len ≤ a.length →
      limbs ((add a b len).take len) = (limbs (a.take len) + b.toNat) % 2 ^ (32 * len) ∧
        (add a b len).drop len = a.drop len) ∧
    (∀ k < calls, (mskRekeyHandle cfg (input k) (vap k)).gnonce = add (vap k).gnonce 1 4) ∧
    (∀ i j, i < j → j < calls →
      (∀ k ≤ j, overflow (mskRekeyHandle cfg (input k) (vap k)).gnonce = false) →
      limbs (mskRekeyHandle cfg (input i) (vap i)).gnonce <
        limbs (mskRekeyHandle cfg (input j) (vap j)).gnonce) ∧
    ∀ k < calls, ∀ frame, Announced cfg (input k) (vap k) frame →
      overflow (mskRekeyHandle cfg (input k) (vap k)).gnonce = false ∧
      identifierOf frame = limbs (mskRekeyHandle cfg (input k) (vap k)).gnonce ∧
      ∀ i < k, ∀ earlier, Announced cfg (input i) (vap i) earlier →
        identifierOf earlier = identifierOf frame → 2 ^ 128 ∣ k - i := by
  refine ⟨fun a b len => add_limbs b, ?_, fun i j => run.increases, ?_⟩
  · intro k inside
    rw [mskRekeyHandle_gnonce, updateGnonce_eq_add (run.counts inside).1]
  · intro k inside frame sent
    obtain ⟨room, same⟩ := sent.identifier (run.counts inside).1
    rw [mskRekeyHandle_gnonce]
    exact ⟨room, same, fun i less earlier before => run.distance less inside before sent⟩

end Runs

/-- Three calls in a row with nothing in between. -/
def rekeysInTurn : Nat → Vap
  | 0 => networkStart 0x07
  | k + 1 => mskRekeyHandle (network 0x07) (at1000 .multiRekey) (rekeysInTurn k)

theorem announcement_identifiers_three :
    RekeyRun (network 0x07) 3 rekeysInTurn (fun _ => at1000 .multiRekey) ∧
      limbs (rekeysInTurn 1).gnonce < limbs (rekeysInTurn 3).gnonce := by
  have run : RekeyRun (network 0x07) 3 rekeysInTurn (fun _ => at1000 .multiRekey) :=
    ⟨by decide, fun _ _ => rfl⟩
  refine ⟨run, (announcement_identifiers run).2.2.1 0 2 (by decide) (by decide) ?_⟩
  decide

/-- The access point of `networkStart` with a station that has its keys. -/
def withStation (gnonce : List UInt32) : Vap :=
  let vap := networkStart 0x07
  { vap with
    table := Function.update vap.table 0 { vap.table 0 with status := .authenticated }
    gnonce := gnonce }

/-- After `2 ^ 128` calls the first identifier is announced again. -/
theorem identifier_used_before :
    ¬∀ (cfg : Config) (calls : Nat) (vap : Nat → Vap) (input : Nat → Input),
      RekeyRun cfg calls vap input → ∀ i j, i < j → j < calls →
        ∀ frame later, Announced cfg (input i) (vap i) frame →
          Announced cfg (input j) (vap j) later → identifierOf frame ≠ identifierOf later := by
  intro never
  let gnonce : Nat → List UInt32 := fun k => updateGnonce^[k] [0, 0, 0, 0]
  have counts : ∀ k, (gnonce k).length = 4 ∧ limbs (gnonce k) = k % 2 ^ 128 := by
    intro k
    induction k with
    | zero => exact ⟨rfl, rfl⟩
    | succ k ih =>
      have next : gnonce (k + 1) = updateGnonce (gnonce k) :=
        Function.iterate_succ_apply' updateGnonce k _
      rw [next, updateGnonce_length, updateGnonce_limbs, ih.1, ih.2, Nat.mod_add_mod]
      exact ⟨rfl, rfl⟩
  have back : gnonce (2 ^ 128) = gnonce 0 := by
    apply limbs_injective
    · rw [(counts _).1, (counts 0).1]
    · rw [(counts _).2, (counts 0).2, Nat.mod_self, Nat.zero_mod]
  have run : RekeyRun (network 0x07) (2 ^ 128 + 1) (fun k => withStation (gnonce k))
      (fun _ => at1000 .multiRekey) := by
    refine ⟨rfl, ?_⟩
    intro k _
    rw [mskRekeyHandle_gnonce]
    exact Function.iterate_succ_apply' updateGnonce k _
  obtain ⟨marks, past, only, _⟩ := mskRekeyHandle_past (network 0x07) (at1000 .multiRekey)
    (withStation (gnonce 0)) 0
  have some : ((mskRekeyHandle (network 0x07) (at1000 .multiRekey)
      (withStation (gnonce 0))).past 0).length = 1 := by
    decide
  cases marks with
  | nil => exact absurd (past ▸ some) (by decide)
  | cons mark rest =>
    obtain ⟨msksa, sta, built⟩ := only mark (by simp)
    have sent : Announced (network 0x07) (at1000 .multiRekey) (withStation (gnonce 0))
        (packMskAnnouncement (network 0x07) msksa (updateGnonce (gnonce 0)) sta rekeyGsn) :=
      ⟨0, _, past, by rw [built]; exact mem_cons_self⟩
    exact never _ _ _ _ run 0 (2 ^ 128) (by decide) (Nat.lt_succ_self _) _ _ sent
      (by rw [back]; exact sent) rfl

end AthApps.Wapi
