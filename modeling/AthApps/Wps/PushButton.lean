import Mathlib.Data.List.Nodup
import Mathlib.Data.List.Infix
import Mathlib.Data.List.Perm.Subperm
import AthApps.Lib.Trace
import Mathlib.Algebra.Group.Nat.Defs

/-!
# Push button conflicts

The access point keeps a table of the stations that announce the push button
method in their probe requests.  A session with one station is refused while
another one announced itself within the last two minutes.  A station is taken
out of the table when its session succeeds.

The search for the entry to replace starts from the time 0, which no used entry
compares below.  With every entry in use it ends with the index -1.
-/

set_option autoImplicit false

namespace AthApps.Wps.PushButton

open AthApps.Lib List
open Function (update update_of_ne update_self)

def wpsPbcMax : Nat := 8

abbrev Addr : Type := BitVec 48

/-- An entry of `wps_pbc_track`. -/
structure Entry where
  timestamp : Int
  addr : Addr
  deriving DecidableEq

def Entry.zero : Entry where
  timestamp := 0
  addr := 0

abbrev Table : Type := Fin wpsPbcMax → Entry

def Table.zero : Table := fun _ => Entry.zero

/-- A write to `wps_pbc_track[-1]`. -/
inductive Fault where
  | outside
  deriving DecidableEq

/-! ## The functions -/

/-- The search for the least recently used entry: `oldest_idx` and `oldest_time`. -/
@[grind =] def leastRecent (table : Table) : List (Fin wpsPbcMax) → Option (Fin wpsPbcMax) × Int →
    Option (Fin wpsPbcMax) × Int
  | [], oldest => oldest
  | idx :: rest, oldest =>
    if (table idx).timestamp ≤ oldest.2 then
      leastRecent table rest (some idx, (table idx).timestamp)
    else leastRecent table rest oldest

def pbcTrack (table : Table) (addr : Addr) (now : Int) : Except Fault Table :=
  match (List.finRange wpsPbcMax).find? fun idx => (table idx).addr = addr with
  | some idx => .ok (update table idx { table idx with timestamp := now })
  | none =>
    match (leastRecent table (List.finRange wpsPbcMax) (none, 0)).1 with
    | some idx => .ok (update table idx { timestamp := now, addr := addr })
    | none => .error .outside

def cutoff (now : Int) : Int := now - 120

def Conflicts (addr : Addr) (now : Int) (entry : Entry) : Prop :=
  entry.timestamp ≠ 0 ∧ ¬entry.timestamp < cutoff now ∧ entry.addr ≠ addr

instance (addr : Addr) (now : Int) (entry : Entry) : Decidable (Conflicts addr now entry) :=
  inferInstanceAs (Decidable (_ ∧ _))

def pbcCheck (table : Table) (addr : Addr) (now : Int) : Nat :=
  (List.finRange wpsPbcMax).countP fun idx => Conflicts addr now (table idx)

def pbcClear (table : Table) (addr : Addr) : Table :=
  fun idx => if (table idx).addr = addr then Entry.zero else table idx

def typeDevicePwdId : Nat := 0x1012

def word16 (high low : UInt8) : Nat := high.toNat * 256 + low.toNat

/-- The search of `eap_wps_handle_mgmt_frames` for a device password id: is it
the one of the push button method? -/
@[grind =] def announces : List UInt8 → Bool
  | type1 :: type0 :: len1 :: len0 :: rest =>
    if word16 len1 len0 ≤ rest.length then
      if word16 type1 type0 = typeDevicePwdId ∧ word16 len1 len0 = 2 then
        word16 (rest.getD 0 0) (rest.getD 1 0) = 4
      else announces (rest.drop (word16 len1 len0))
    else false
  | _ => false
termination_by buf => buf.length
decreasing_by
  simp only [length_cons, length_drop]
  omega

/-! ## Runs -/

inductive Event where
  /-- `eap_wps_handle_mgmt_frames` -/
  | mgmtFrame (now : Int) (addr : Addr) (buf : List UInt8)
  | check (now : Int) (addr : Addr)
  | clear (addr : Addr)

def Event.Probe (event : Event) (addr : Addr) (now : Int) : Prop :=
  ∃ buf, event = .mgmtFrame now addr buf ∧ announces buf = true

def step (table : Table) : Event → Except Fault Table
  | .mgmtFrame now addr buf => if announces buf then pbcTrack table addr now else .ok table
  | .check _ _ => .ok table
  | .clear addr => .ok (pbcClear table addr)

def tableAfter (history : List Event) : Except Fault Table :=
  history.foldlM step Table.zero

def Event.time? : Event → Option Int
  | .mgmtFrame now _ _ => some now
  | .check now _ => some now
  | .clear _ => none

/-- The clock is positive and does not go back, and stations have an address. -/
structure Clocked (history : List Event) : Prop where
  positive : ∀ time ∈ history.filterMap Event.time?, 0 < time
  ordered : (history.filterMap Event.time?).Pairwise (· ≤ ·)
  addressed : ∀ now addr buf, .mgmtFrame now addr buf ∈ history → addr ≠ 0

/-! ## What the table is for -/

def ProbedSince (history : List Event) (addr : Addr) (since : Int) : Prop :=
  ∃ before event after now, history = before ++ event :: after ∧ event.Probe addr now ∧
    since ≤ now ∧ .clear addr ∉ after

def recent (since : Int) (history : List Event) : List Addr :=
  (history.filterMap fun
    | .mgmtFrame now addr buf => if announces buf ∧ since ≤ now then some addr else none
    | _ => none).dedup

def Full (table : Table) : Prop := ∀ idx, (table idx).timestamp ≠ 0

def NoTwice (table : Table) : Prop :=
  ∀ first second, (table first).timestamp ≠ 0 → (table second).timestamp ≠ 0 →
    (table first).addr = (table second).addr → first = second

def ReplacesOldest (table : Table) (addr : Addr) (now : Int) : Prop :=
  ∃ idx, pbcTrack table addr now =
      .ok (update table idx { timestamp := now, addr := addr }) ∧
    ∀ other, (table idx).timestamp ≤ (table other).timestamp

def Answers (history : List Event) (table : Table) : Event → Prop
  | .mgmtFrame now addr buf => announces buf = true → Full table →
      (∀ idx, (table idx).addr ≠ addr) → ReplacesOldest table addr now
  | .check now addr => (recent (cutoff now) history).length ≤ wpsPbcMax →
      (pbcCheck table addr now ≠ 0 ↔
        ∃ other, other ≠ addr ∧ ProbedSince history other (cutoff now))
  | .clear _ => True

/-- The table is written inside its bounds, has no address twice, and every
event is answered as it should be. -/
structure DetectsConflicts (history : List Event) : Prop where
  inside : ∀ before, before <+: history → ∃ table, tableAfter before = .ok table ∧ NoTwice table
  answers : Justified
    (fun before event => ∀ table, tableAfter before = .ok table → Answers before table event)
    history

/-- The stations that have sent a push button probe request and were not
cleared since. -/
def waiting (history : List Event) : List Addr :=
  history.foldl (fun stations event =>
    match event with
    | .mgmtFrame _ addr buf => if announces buf then stations.insert addr else stations
    | .check _ _ => stations
    | .clear addr => stations.erase addr) []

/-! ## Histories -/

section History

variable (history : List Event) (event : Event)

theorem waiting_snoc :
    waiting (history ++ [event]) =
      match event with
      | .mgmtFrame _ addr buf =>
        if announces buf then (waiting history).insert addr else waiting history
      | .check _ _ => waiting history
      | .clear addr => (waiting history).erase addr := by
  rw [waiting, foldl_append]
  rfl

theorem waiting_nodup : (waiting history).Nodup := by
  induction history using List.reverseRecOn with
  | nil => exact nodup_nil
  | append_singleton earlier event ih =>
    rw [waiting_snoc]
    cases event with
    | mgmtFrame now addr buf =>
      simp only
      split
      · exact ih.insert
      · exact ih
    | check now addr => exact ih
    | clear addr => exact ih.erase addr

theorem probedSince_snoc (addr : Addr) (since : Int) :
    ProbedSince (history ++ [event]) addr since ↔
      (∃ now, event.Probe addr now ∧ since ≤ now) ∨
        (event ≠ .clear addr ∧ ProbedSince history addr since) := by
  constructor
  · rintro ⟨before, probe, after, now, split, probes, late, kept⟩
    rcases eq_nil_or_concat after with rfl | ⟨front, last, rfl⟩
    · obtain ⟨-, same⟩ := append_inj' split rfl
      cases same
      exact Or.inl ⟨now, probes, late⟩
    · rw [concat_eq_append] at split kept
      rw [← cons_append, ← append_assoc] at split
      obtain ⟨same, lastEq⟩ := append_inj' split rfl
      cases lastEq
      rw [mem_append, mem_singleton, not_or] at kept
      exact Or.inr ⟨fun is => kept.2 is.symm, before, probe, front, now, same, probes, late, kept.1⟩
  · rintro (⟨now, probes, late⟩ | ⟨other, before, probe, after, now, same, probes, late, kept⟩)
    · exact ⟨history, event, [], now, rfl, probes, late, not_mem_nil⟩
    · refine ⟨before, probe, after ++ [event], now, ?_, probes, late, ?_⟩
      · rw [same, append_assoc, cons_append]
      · rw [mem_append, mem_singleton, not_or]
        exact ⟨kept, fun is => other is.symm⟩

theorem not_probe_clear (cleared addr : Addr) (now : Int) :
    ¬(Event.clear cleared).Probe addr now := by
  rintro ⟨buf, same, -⟩
  cases same

theorem mem_waiting (addr : Addr) :
    addr ∈ waiting history ↔ ∃ since, ProbedSince history addr since := by
  induction history using List.reverseRecOn with
  | nil =>
    simp only [waiting, foldl_nil, not_mem_nil, false_iff, not_exists]
    rintro since ⟨before, probe, after, now, split, -⟩
    exact absurd split.symm (by simp)
  | append_singleton earlier event ih =>
    rw [waiting_snoc]
    simp only [probedSince_snoc]
    cases event with
    | mgmtFrame now station buf =>
      simp only [ne_eq, reduceCtorEq, not_false_eq_true, true_and]
      by_cases announced : announces buf = true
      · rw [if_pos announced, mem_insert_iff, ih]
        constructor
        · rintro (rfl | ⟨since, probed⟩)
          · exact ⟨now, Or.inl ⟨now, ⟨buf, rfl, announced⟩, Int.le_refl _⟩⟩
          · exact ⟨since, Or.inr probed⟩
        · rintro ⟨since, ⟨time, ⟨frame, same, -⟩, -⟩ | probed⟩
          · cases same
            exact Or.inl rfl
          · exact Or.inr ⟨since, probed⟩
      · rw [if_neg announced, ih]
        constructor
        · rintro ⟨since, probed⟩
          exact ⟨since, Or.inr probed⟩
        · rintro ⟨since, ⟨time, ⟨frame, same, announced'⟩, -⟩ | probed⟩
          · cases same
            exact absurd announced' announced
          · exact ⟨since, probed⟩
    | check now station =>
      simp only [ne_eq, reduceCtorEq, not_false_eq_true, true_and, ih]
      constructor
      · rintro ⟨since, probed⟩
        exact ⟨since, Or.inr probed⟩
      · rintro ⟨since, ⟨time, ⟨frame, same, -⟩, -⟩ | probed⟩
        · cases same
        · exact ⟨since, probed⟩
    | clear station =>
      simp only [(waiting_nodup earlier).mem_erase_iff, ih, ne_eq, Event.clear.injEq]
      constructor
      · rintro ⟨other, since, probed⟩
        exact ⟨since, Or.inr ⟨fun is => other is.symm, probed⟩⟩
      · rintro ⟨since, ⟨time, probes, -⟩ | ⟨other, probed⟩⟩
        · exact absurd probes (not_probe_clear station addr time)
        · exact ⟨fun is => other is.symm, since, probed⟩

theorem Clocked.front {history : List Event} {event : Event} (clocked : Clocked (history ++ [event])) :
    Clocked history := by
  have ordered := clocked.ordered
  rw [filterMap_append, pairwise_append] at ordered
  refine ⟨?_, ordered.1, ?_⟩
  · intro time mem
    apply clocked.positive
    rw [filterMap_append]
    exact mem_append_left _ mem
  · intro now addr buf mem
    exact clocked.addressed now addr buf (mem_append_left _ mem)

theorem Clocked.of_prefix {before history : List Event} (clocked : Clocked history)
    (front : before <+: history) : Clocked before := by
  obtain ⟨after, rfl⟩ := front
  induction after using List.reverseRecOn with
  | nil =>
    rw [append_nil] at clocked
    exact clocked
  | append_singleton earlier event ih =>
    rw [← append_assoc] at clocked
    exact ih clocked.front

theorem ProbedSince.le {history : List Event} {event : Event} {addr : Addr} {since now : Int}
    (clocked : Clocked (history ++ [event])) (time : event.time? = some now)
    (probed : ProbedSince history addr since) : since ≤ now := by
  obtain ⟨before, probe, after, then_, rfl, ⟨buf, rfl, -⟩, late, -⟩ := probed
  have ordered := clocked.ordered
  rw [filterMap_append, pairwise_append] at ordered
  apply Int.le_trans late
  apply ordered.2.2
  · rw [mem_filterMap]
    exact ⟨.mgmtFrame then_ addr buf, by simp, rfl⟩
  · rw [mem_filterMap]
    exact ⟨event, mem_singleton_self _, time⟩

end History

/-! ## The table and the history -/

/-- The entries in use are the waiting stations, with their last probe request. -/
structure Tracks (history : List Event) (table : Table) : Prop where
  free : ∀ idx, (table idx).timestamp = 0 → (table idx).addr = 0
  used : ∀ idx, (table idx).timestamp ≠ 0 →
    0 < (table idx).timestamp ∧ (table idx).addr ≠ 0 ∧
      ∀ since, ProbedSince history (table idx).addr since ↔ since ≤ (table idx).timestamp
  noTwice : NoTwice table
  held : ∀ addr since, ProbedSince history addr since →
    ∃ idx, (table idx).timestamp ≠ 0 ∧ (table idx).addr = addr

theorem leastRecent_eq (table : Table) (positive : ∀ idx, 0 ≤ (table idx).timestamp)
    (indices : List (Fin wpsPbcMax)) : ∀ oldest,
    (leastRecent table indices (oldest, 0)).1 =
      ((indices.filter fun idx => (table idx).timestamp = 0).getLast?).or oldest := by
  induction indices with
  | nil =>
    intro oldest
    rfl
  | cons idx rest ih =>
    intro oldest
    have low := positive idx
    rw [leastRecent]
    by_cases zero : (table idx).timestamp = 0
    · rw [zero, if_pos (Int.le_refl 0), ih, filter_cons_of_pos (by simpa using zero),
        getLast?_cons]
      cases (rest.filter fun idx => (table idx).timestamp = 0).getLast? with
      | none => rfl
      | some last => rfl
    · have above : ¬(table idx).timestamp ≤ 0 := by omega
      rw [if_neg above, ih, filter_cons_of_neg (by simpa using zero)]

namespace Tracks

variable {history : List Event} {table : Table}

theorem zero : Tracks [] Table.zero := by
  refine ⟨fun _ _ => rfl, fun idx busy => absurd rfl busy, fun idx _ busy => absurd rfl busy, ?_⟩
  rintro addr since ⟨before, probe, after, now, split, -⟩
  exact absurd split.symm (by simp)

theorem nonneg (tracks : Tracks history table) (idx : Fin wpsPbcMax) :
    0 ≤ (table idx).timestamp := by
  by_cases zero : (table idx).timestamp = 0
  · omega
  · have positive := (tracks.used idx zero).1
    omega

theorem busy_of_addr (tracks : Tracks history table) {idx : Fin wpsPbcMax}
    (addressed : (table idx).addr ≠ 0) : (table idx).timestamp ≠ 0 :=
  fun zero => addressed (tracks.free idx zero)

theorem idle (tracks : Tracks history table) (event : Event)
    (same : ∀ addr since, ProbedSince (history ++ [event]) addr since ↔
      ProbedSince history addr since) :
    Tracks (history ++ [event]) table := by
  refine ⟨tracks.free, ?_, tracks.noTwice, ?_⟩
  · intro idx busy
    obtain ⟨positive, addressed, last⟩ := tracks.used idx busy
    refine ⟨positive, addressed, ?_⟩
    intro since
    rw [same, last]
  · intro addr since probed
    exact tracks.held addr since ((same addr since).mp probed)

theorem probedSince_clear (cleared addr : Addr) (since : Int) :
    ProbedSince (history ++ [.clear cleared]) addr since ↔
      addr ≠ cleared ∧ ProbedSince history addr since := by
  rw [probedSince_snoc]
  constructor
  · rintro (⟨now, probes, -⟩ | ⟨other, probed⟩)
    · exact absurd probes (not_probe_clear cleared addr now)
    · exact ⟨fun is => other (by rw [is]), probed⟩
  · rintro ⟨other, probed⟩
    refine Or.inr ⟨?_, probed⟩
    intro is
    cases is
    exact other rfl

theorem clear (tracks : Tracks history table) (cleared : Addr) :
    Tracks (history ++ [.clear cleared]) (pbcClear table cleared) := by
  have kept : ∀ idx, (pbcClear table cleared idx).timestamp ≠ 0 →
      (table idx).addr ≠ cleared ∧ pbcClear table cleared idx = table idx := by
    intro idx busy
    by_cases here : (table idx).addr = cleared
    · rw [pbcClear, if_pos here] at busy
      exact absurd rfl busy
    · exact ⟨here, if_neg here⟩
  refine ⟨?_, ?_, ?_, ?_⟩
  · intro idx zero
    by_cases here : (table idx).addr = cleared
    · rw [pbcClear, if_pos here]
      rfl
    · rw [pbcClear, if_neg here] at zero ⊢
      exact tracks.free idx zero
  · intro idx busy
    obtain ⟨other, same⟩ := kept idx busy
    rw [same] at busy ⊢
    obtain ⟨positive, addressed, last⟩ := tracks.used idx busy
    refine ⟨positive, addressed, ?_⟩
    intro since
    rw [probedSince_clear, last]
    exact and_iff_right other
  · intro first second busy busy' addrEq
    obtain ⟨-, same⟩ := kept first busy
    obtain ⟨-, same'⟩ := kept second busy'
    rw [same] at busy addrEq
    rw [same'] at busy' addrEq
    exact tracks.noTwice first second busy busy' addrEq
  · intro addr since probed
    obtain ⟨other, probed⟩ := (probedSince_clear cleared addr since).mp probed
    obtain ⟨idx, busy, rfl⟩ := tracks.held addr since probed
    have same : pbcClear table cleared idx = table idx := if_neg other
    exact ⟨idx, by rw [same]; exact busy, by rw [same]⟩

theorem probedSince_frame {now : Int} {station : Addr} {buf : List UInt8}
    (announced : announces buf = true)
    (clocked : Clocked (history ++ [.mgmtFrame now station buf])) (addr : Addr) (since : Int) :
    ProbedSince (history ++ [.mgmtFrame now station buf]) addr since ↔
      if addr = station then since ≤ now else ProbedSince history addr since := by
  rw [probedSince_snoc]
  by_cases own : addr = station
  · rw [if_pos own]
    subst own
    constructor
    · rintro (⟨time, ⟨frame, same, -⟩, late⟩ | ⟨-, probed⟩)
      · cases same
        exact late
      · exact probed.le clocked rfl
    · intro late
      exact Or.inl ⟨now, ⟨buf, rfl, announced⟩, late⟩
  · rw [if_neg own]
    constructor
    · rintro (⟨time, ⟨frame, same, -⟩, -⟩ | ⟨-, probed⟩)
      · cases same
        exact absurd rfl own
      · exact probed
    · intro probed
      exact Or.inr ⟨by simp, probed⟩

theorem enter (tracks : Tracks history table) (now : Int) (addr : Addr) (buf : List UInt8)
    (announced : announces buf = true)
    (clocked : Clocked (history ++ [.mgmtFrame now addr buf])) (idx : Fin wpsPbcMax)
    (place : (table idx).addr = addr ∨
      ((table idx).timestamp = 0 ∧ ∀ other, (table other).addr ≠ addr)) :
    Tracks (history ++ [.mgmtFrame now addr buf])
      (update table idx { timestamp := now, addr := addr }) := by
  have addressed : addr ≠ 0 :=
    clocked.addressed now addr buf (mem_append_right _ (mem_singleton_self _))
  have positive : 0 < now := by
    apply clocked.positive
    rw [filterMap_append]
    exact mem_append_right _ (mem_singleton_self _)
  -- no other entry in use has the address
  have others : ∀ other, other ≠ idx → (table other).timestamp ≠ 0 → (table other).addr ≠ addr := by
    intro other different busy sameAddr
    rcases place with here | ⟨-, fresh⟩
    · apply different
      apply tracks.noTwice other idx busy
      · exact tracks.busy_of_addr (by rw [here]; exact addressed)
      · rw [sameAddr, here]
    · exact fresh other sameAddr
  have entry : ∀ other, other ≠ idx →
      update table idx { timestamp := now, addr := addr } other = table other :=
    fun other different => update_of_ne different _ _
  have own : update table idx { timestamp := now, addr := addr } idx =
      { timestamp := now, addr := addr } := update_self _ _ _
  refine ⟨?_, ?_, ?_, ?_⟩
  · intro other zero
    by_cases here : other = idx
    · rw [here, own] at zero
      exact absurd zero (by simp only; omega)
    · rw [entry other here] at zero ⊢
      exact tracks.free other zero
  · intro other busy
    by_cases here : other = idx
    · rw [here, own]
      refine ⟨positive, addressed, ?_⟩
      intro since
      rw [probedSince_frame announced clocked, if_pos rfl]
    · rw [entry other here] at busy ⊢
      obtain ⟨positive, addressed, last⟩ := tracks.used other busy
      refine ⟨positive, addressed, ?_⟩
      intro since
      rw [probedSince_frame announced clocked, if_neg (others other here busy), last]
  · intro first second busy busy' addrEq
    by_cases here : first = idx
    · by_cases there : second = idx
      · rw [here, there]
      · rw [entry second there] at busy' addrEq
        rw [here, own] at addrEq
        exact absurd addrEq.symm (others second there busy')
    · by_cases there : second = idx
      · rw [entry first here] at busy addrEq
        rw [there, own] at addrEq
        exact absurd addrEq (others first here busy)
      · rw [entry first here] at busy addrEq
        rw [entry second there] at busy' addrEq
        exact tracks.noTwice first second busy busy' addrEq
  · intro station since probed
    rw [probedSince_frame announced clocked] at probed
    by_cases same : station = addr
    · refine ⟨idx, ?_, ?_⟩
      · rw [own]
        simp only
        omega
      · rw [own, same]
    · rw [if_neg same] at probed
      obtain ⟨other, busy, rfl⟩ := tracks.held station since probed
      have different : other ≠ idx := by
        rintro rfl
        rcases place with here | ⟨zero, -⟩
        · exact same here
        · exact busy zero
      refine ⟨other, ?_, ?_⟩
      · rw [entry other different]
        exact busy
      · rw [entry other different]

theorem track (tracks : Tracks history table) (now : Int) (addr : Addr) (buf : List UInt8)
    (announced : announces buf = true)
    (clocked : Clocked (history ++ [.mgmtFrame now addr buf])) :
    (∃ after, pbcTrack table addr now = .ok after ∧
      Tracks (history ++ [.mgmtFrame now addr buf]) after) ∨
    (pbcTrack table addr now = .error .outside ∧ Full table ∧
      ∀ idx, (table idx).addr ≠ addr) := by
  unfold pbcTrack
  cases found : (List.finRange wpsPbcMax).find? fun idx => (table idx).addr = addr with
  | some idx =>
    have here : (table idx).addr = addr := by
      simpa using find?_some found
    refine Or.inl ⟨_, rfl, ?_⟩
    simp only [here]
    exact tracks.enter now addr buf announced clocked idx (Or.inl here)
  | none =>
    have fresh : ∀ idx, (table idx).addr ≠ addr := by
      intro idx
      have missing := find?_eq_none.mp found idx (mem_finRange idx)
      simpa using missing
    simp only
    rw [leastRecent_eq table tracks.nonneg, Option.or_none]
    cases last : ((List.finRange wpsPbcMax).filter fun idx =>
        (table idx).timestamp = 0).getLast? with
    | some idx =>
      have mem := mem_of_getLast? last
      have zero : (table idx).timestamp = 0 := by
        simpa using (mem_filter.mp mem).2
      exact Or.inl ⟨_, rfl,
        tracks.enter now addr buf announced clocked idx (Or.inr ⟨zero, fresh⟩)⟩
    | none =>
      refine Or.inr ⟨rfl, ?_, fresh⟩
      intro idx zero
      have empty := getLast?_eq_none_iff.mp last
      have mem : idx ∈ (List.finRange wpsPbcMax).filter fun idx =>
          (table idx).timestamp = 0 :=
        mem_filter.mpr ⟨mem_finRange idx, by simpa using zero⟩
      rw [empty] at mem
      cases mem

theorem waiting_le (tracks : Tracks history table) : (waiting history).length ≤ wpsPbcMax := by
  have within : waiting history ⊆ (List.finRange wpsPbcMax).map fun idx => (table idx).addr := by
    intro addr mem
    obtain ⟨since, probed⟩ := (mem_waiting history addr).mp mem
    obtain ⟨idx, -, here⟩ := tracks.held addr since probed
    exact mem_map.mpr ⟨idx, mem_finRange idx, here⟩
  have bound := ((waiting_nodup history).subperm within).length_le
  rw [length_map, length_finRange] at bound
  exact bound

/-- With every entry in use for another station one more is too many. -/
theorem lt_waiting (tracks : Tracks history table) (full : Full table) (now : Int) (addr : Addr)
    (buf : List UInt8) (announced : announces buf = true)
    (fresh : ∀ idx, (table idx).addr ≠ addr) :
    wpsPbcMax < (waiting (history ++ [.mgmtFrame now addr buf])).length := by
  have distinct : (addr :: (List.finRange wpsPbcMax).map fun idx => (table idx).addr).Nodup := by
    rw [nodup_cons]
    constructor
    · intro mem
      obtain ⟨idx, -, here⟩ := mem_map.mp mem
      exact fresh idx here
    · apply List.Nodup.map _ (nodup_finRange wpsPbcMax)
      intro first second same
      exact tracks.noTwice first second (full first) (full second) same
  have within : addr :: (List.finRange wpsPbcMax).map (fun idx => (table idx).addr) ⊆
      waiting (history ++ [.mgmtFrame now addr buf]) := by
    rw [waiting_snoc]
    simp only
    rw [if_pos announced]
    intro station mem
    rw [mem_insert_iff]
    rcases mem_cons.mp mem with rfl | mem
    · exact Or.inl rfl
    · obtain ⟨idx, -, rfl⟩ := mem_map.mp mem
      refine Or.inr ((mem_waiting history _).mpr ⟨(table idx).timestamp, ?_⟩)
      exact ((tracks.used idx (full idx)).2.2 _).mpr (Int.le_refl _)
  have bound := (distinct.subperm within).length_le
  rw [length_cons, length_map, length_finRange] at bound
  exact bound

theorem check (tracks : Tracks history table) (addr : Addr) (now : Int) :
    pbcCheck table addr now ≠ 0 ↔
      ∃ other, other ≠ addr ∧ ProbedSince history other (cutoff now) := by
  rw [pbcCheck, Nat.ne_zero_iff_zero_lt, countP_pos_iff]
  constructor
  · rintro ⟨idx, -, conflicts⟩
    obtain ⟨busy, late, other⟩ := of_decide_eq_true conflicts
    refine ⟨(table idx).addr, other, ?_⟩
    rw [(tracks.used idx busy).2.2]
    omega
  · rintro ⟨other, different, probed⟩
    obtain ⟨idx, busy, rfl⟩ := tracks.held other _ probed
    rw [(tracks.used idx busy).2.2] at probed
    refine ⟨idx, mem_finRange idx, ?_⟩
    rw [decide_eq_true_eq]
    exact ⟨busy, by omega, different⟩

end Tracks

/-! ## Whole runs -/

theorem tableAfter_snoc (history : List Event) (event : Event) :
    tableAfter (history ++ [event]) = (tableAfter history).bind fun table => step table event := by
  unfold tableAfter
  rw [foldlM_append]
  cases history.foldlM step Table.zero with
  | error fault => rfl
  | ok table => exact bind_pure (step table event)

theorem Tracks.step {history : List Event} {table : Table} {event : Event}
    (tracks : Tracks history table) (clocked : Clocked (history ++ [event])) :
    (∃ after, PushButton.step table event = .ok after ∧ Tracks (history ++ [event]) after) ∨
    (PushButton.step table event = .error .outside ∧
      wpsPbcMax < (waiting (history ++ [event])).length) := by
  cases event with
  | mgmtFrame now addr buf =>
    simp only [PushButton.step]
    by_cases announced : announces buf = true
    · rw [if_pos announced]
      rcases tracks.track now addr buf announced clocked with entered | ⟨fault, full, fresh⟩
      · exact Or.inl entered
      · exact Or.inr ⟨fault, tracks.lt_waiting full now addr buf announced fresh⟩
    · rw [if_neg announced]
      refine Or.inl ⟨table, rfl, tracks.idle _ ?_⟩
      intro station since
      rw [probedSince_snoc]
      constructor
      · rintro (⟨time, ⟨frame, same, announced'⟩, -⟩ | ⟨-, probed⟩)
        · cases same
          exact absurd announced' announced
        · exact probed
      · intro probed
        exact Or.inr ⟨by simp, probed⟩
  | check now addr =>
    refine Or.inl ⟨table, rfl, tracks.idle _ ?_⟩
    intro station since
    rw [probedSince_snoc]
    constructor
    · rintro (⟨time, ⟨frame, same, -⟩, -⟩ | ⟨-, probed⟩)
      · cases same
      · exact probed
    · intro probed
      exact Or.inr ⟨by simp, probed⟩
  | clear addr => exact Or.inl ⟨_, rfl, tracks.clear addr⟩

theorem tracks_of_ok (history : List Event) (clocked : Clocked history) :
    ∀ table, tableAfter history = .ok table → Tracks history table := by
  induction history using List.reverseRecOn with
  | nil =>
    intro table ok
    cases ok
    exact Tracks.zero
  | append_singleton earlier event ih =>
    intro table ok
    rw [tableAfter_snoc] at ok
    cases front : tableAfter earlier with
    | error fault =>
      rw [front] at ok
      cases ok
    | ok before =>
      rw [front] at ok
      rcases (ih clocked.front before front).step clocked with
        ⟨after, stepped, tracks⟩ | ⟨fault, -⟩
      · rw [Except.bind, stepped] at ok
        cases ok
        exact tracks
      · rw [Except.bind, fault] at ok
        cases ok

theorem ok_of_waiting (history : List Event) (clocked : Clocked history)
    (few : ∀ before, before <+: history → (waiting before).length ≤ wpsPbcMax) :
    ∃ table, tableAfter history = .ok table := by
  induction history using List.reverseRecOn with
  | nil => exact ⟨_, rfl⟩
  | append_singleton earlier event ih =>
    obtain ⟨table, ok⟩ := ih clocked.front
      (fun before front => few before (front.trans (prefix_append _ _)))
    rw [tableAfter_snoc, ok]
    rcases (tracks_of_ok earlier clocked.front table ok).step clocked with
      ⟨after, stepped, -⟩ | ⟨-, many⟩
    · exact ⟨after, stepped⟩
    · have bound := few _ (prefix_refl _)
      omega

/-- Conflicts are detected if and only if there are never more waiting stations
than entries. -/
theorem detects_conflicts (history : List Event) (clocked : Clocked history) :
    DetectsConflicts history ↔
      ∀ before, before <+: history → (waiting before).length ≤ wpsPbcMax := by
  constructor
  · intro detects before front
    obtain ⟨table, ok, -⟩ := detects.inside before front
    exact (tracks_of_ok before (clocked.of_prefix front) table ok).waiting_le
  · intro few
    constructor
    · intro before front
      obtain ⟨table, ok⟩ := ok_of_waiting before (clocked.of_prefix front)
        (fun earlier inner => few earlier (inner.trans front))
      exact ⟨table, ok, (tracks_of_ok before (clocked.of_prefix front) table ok).noTwice⟩
    · rintro before event after rfl table ok
      have front : before ++ [event] <+: before ++ event :: after := by
        exact ⟨after, (append_cons before event after).symm⟩
      have tracks := tracks_of_ok before (clocked.of_prefix (prefix_append _ _)) table ok
      cases event with
      | mgmtFrame now addr buf =>
        intro announced full fresh
        have bound := few _ front
        have many := tracks.lt_waiting full now addr buf announced fresh
        omega
      | check now addr =>
        intro few
        exact tracks.check addr now
      | clear addr => exact True.intro

/-- A device password id of the push button method. -/
def pushButtonIe : List UInt8 := [0x10, 0x12, 0, 2, 0, 4]

def stations (many : Nat) : List Event :=
  (List.range many).map fun (number : Nat) =>
    .mgmtFrame (number + 1) (BitVec.ofNat 48 (number + 1)) pushButtonIe

theorem stations_clocked (many : Nat) (few : many < 2 ^ 48 - 1) : Clocked (stations many) := by
  have times : (stations many).filterMap Event.time? =
      (List.range many).map fun (number : Nat) => (number : Int) + 1 := by
    rw [stations, filterMap_map, ← filterMap_eq_map]
    rfl
  refine ⟨?_, ?_, ?_⟩
  · rw [times]
    intro time mem
    obtain ⟨number, -, rfl⟩ := mem_map.mp mem
    omega
  · rw [times, pairwise_map]
    apply pairwise_lt_range.imp
    intro first second less
    omega
  · intro now addr buf mem
    obtain ⟨number, bound, same⟩ := mem_map.mp mem
    rw [mem_range] at bound
    cases same
    intro zero
    have value := congrArg BitVec.toNat zero
    rw [BitVec.toNat_ofNat, Nat.mod_eq_of_lt (by omega)] at value
    exact absurd value (Nat.succ_ne_zero _)

/-- Eight stations fit, and a check for the first of them finds the others. -/
theorem eight_stations_detected :
    DetectsConflicts (stations 8) ∧ (waiting (stations 8)).length = 8 := by
  refine ⟨(detects_conflicts (stations 8) (stations_clocked 8 (by decide))).mpr ?_, by decide +kernel⟩
  intro before front
  have all : ∀ before ∈ (stations 8).inits, (waiting before).length ≤ wpsPbcMax := by
    decide +kernel
  exact all before ((mem_inits before _).mpr front)

/-- The ninth station is written to the entry before the table. -/
theorem ninth_station_outside :
    Clocked (stations 9) ∧ tableAfter (stations 9) = .error .outside ∧
      ¬DetectsConflicts (stations 9) := by
  have many : (waiting (stations 9)).length = 9 := by decide +kernel
  have outside : tableAfter (stations 9) = .error .outside := by
    cases result : tableAfter (stations 9) with
    | error fault => rfl
    | ok table =>
      have bound := (tracks_of_ok _ (stations_clocked 9 (by decide)) table result).waiting_le
      rw [many] at bound
      exact absurd bound (by decide)
  refine ⟨stations_clocked 9 (by decide), outside, ?_⟩
  intro detects
  obtain ⟨table, ok, -⟩ := detects.inside _ (prefix_refl _)
  rw [outside] at ok
  cases ok

end AthApps.Wps.PushButton
