import Helios.Library.Updates
import Mathlib.Data.List.FinRange
import Mathlib.Data.List.Perm.Subperm

/-!
# Open addressing

A hash index over a fixed ring of slots with linear probing.  A search for a key visits
the slots from the key's home slot on and stops at the first slot that is empty or
holds the key.  Removal empties a slot and then takes out and inserts again every entry
of the run of occupied slots that follows it.

An entry is well placed when no slot between its home slot and its own slot is empty.
In a table whose entries are all well placed, a search finds every entry.
-/

namespace OpenAddressing

open Function List Option

variable {Key : Type}

/-- An entry of the index: a key and what it maps to. -/
structure Entry (Key : Type) where
  key : Key
  value : Nat
  deriving DecidableEq, Repr

/-- The slots of an index, by number. -/
abbrev Table (Key : Type) := Nat → Option (Entry Key)

/-- What makes an insertion abort. -/
inductive Fault where
  | duplicateKey
  | full
  deriving DecidableEq, Repr

/-- The slot `offset` places after `start` in a ring of `slots` slots. -/
def ringStep (slots start offset : Nat) : Nat :=
  (start + offset) % slots

section Operations

variable [DecidableEq Key] (hash : Key → Nat) (slots : Nat)

/-- The slots in the order in which a search for `key` visits them. -/
def probeIndices (key : Key) : List Nat :=
  (List.range slots).map (ringStep slots (hash key % slots))

variable (table : Table Key)

variable (key : Key)

/-- Whether a search for `key` stops at slot `index`. -/
def stopsAt (index : Nat) : Bool :=
  match table index with
  | some entry => decide (entry.key = key)
  | none => true

/-- The slot at which a search for `key` stops. -/
def probe : Option Nat :=
  (probeIndices hash slots key).find? (stopsAt table key)

def insert (value : Nat) : Except Fault (Table Key) :=
  match probe hash slots table key with
  | none => .error .full
  | some index =>
    match table index with
    | some _ => .error .duplicateKey
    | none => .ok (update table index (some ⟨key, value⟩))

def lookup : Option Nat :=
  match probe hash slots table key with
  | none => none
  | some index => (table index).map (·.value)

/-- Takes out and inserts again the entries of the run of occupied slots that starts at
`index`, for at most `fuel` slots. -/
def reinsertProbeCluster : Nat → Table Key → Nat → Except Fault (Table Key)
  | 0, table, _ => .ok table
  | fuel + 1, table, index =>
    match table index with
    | none => .ok table
    | some entry =>
      match insert hash slots (update table index none) entry.key entry.value with
      | .error fault => .error fault
      | .ok table' => reinsertProbeCluster fuel table' ((index + 1) % slots)

def remove : Except Fault (Table Key) :=
  match probe hash slots table key with
  | none => .ok table
  | some index =>
    match table index with
    | none => .ok table
    | some _ =>
      reinsertProbeCluster hash slots slots (update table index none)
        ((index + 1) % slots)

end Operations

/-! ### Distances around the ring -/

/-- How many places `target` lies after `start` in a ring of `slots` slots. -/
def ringDistance (slots start target : Nat) : Nat :=
  if start ≤ target then target - start else target + slots - start

section Distance

variable {slots a b c : Nat}

theorem ringDistance_lt (ha : a < slots) (hb : b < slots) :
  ringDistance slots a b < slots
  := by
  unfold ringDistance
  split <;> omega

theorem ringStep_eq_ite (ha : a < slots) (hb : b < slots) :
  ringStep slots a b = if a + b < slots then a + b else a + b - slots
  := by
  unfold ringStep
  split
  · exact Nat.mod_eq_of_lt ‹_›
  · rw [Nat.mod_eq_sub_mod (by omega), Nat.mod_eq_of_lt (by omega)]

theorem ringStep_lt (h : 0 < slots) :
  ringStep slots a b < slots
  := Nat.mod_lt _ h

section

variable (ha : a < slots)

include ha

theorem ringStep_ringDistance (hb : b < slots) :
  ringStep slots a (ringDistance slots a b) = b
  := by
  rw [ringStep_eq_ite ha (ringDistance_lt ha hb)]
  unfold ringDistance
  split <;> split <;> omega

theorem ringDistance_ringStep (hb : b < slots) :
  ringDistance slots a (ringStep slots a b) = b
  := by
  rw [ringStep_eq_ite ha hb]
  unfold ringDistance
  split <;> split <;> omega

theorem succ_mod_eq_ite :
  (a + 1) % slots = if a + 1 = slots then 0 else a + 1
  := by
  split
  · simp [‹a + 1 = slots›]
  · exact Nat.mod_eq_of_lt (by omega)

/-- The distance from the next slot is one less, except to the slot itself. -/
theorem ringDistance_succ (hb : b < slots) (hne : b ≠ a) :
  ringDistance slots ((a + 1) % slots) b + 1 = ringDistance slots a b
  := by
  rw [succ_mod_eq_ite ha]
  unfold ringDistance
  split <;> split <;> split <;> omega

theorem ringDistance_inj (hb : b < slots) (hc : c < slots)
    (h : ringDistance slots a b = ringDistance slots a c) :
  b = c
  := by
  rw [← ringStep_ringDistance ha hb, h, ringStep_ringDistance ha hc]

/-- A slot on the way from `a` to `c`, past `b`, is on the way from `a` as well. -/
theorem ringDistance_through {i j : Nat} (hb : b < slots) (hi : i < slots) (hj : j < slots)
    (hpast : ringDistance slots a b < ringDistance slots a i)
    (hle : ringDistance slots b j ≤ ringDistance slots b i) :
  ringDistance slots a j ≤ ringDistance slots a i
  := by
  unfold ringDistance at *
  split_ifs at * <;> omega

end

end Distance

/-! ### Well-placed entries -/

section WellPlaced

variable (hash : Key → Nat) (slots : Nat)

variable (table : Table Key)

/-- The entry of key `key` at slot `index` has no empty slot between its home slot and
itself. -/
def WellPlaced (key : Key) (index : Nat) : Prop :=
  ∀ j < slots, ringDistance slots (hash key % slots) j <
    ringDistance slots (hash key % slots) index → table j ≠ none

/-- The slots from `cursor` to `index` are all occupied. -/
def Ahead (cursor index : Nat) : Prop :=
  ∀ j < slots, ringDistance slots cursor j ≤ ringDistance slots cursor index → table j ≠ none

/-- The table maps `key` to `value`. -/
def Holds (key : Key) (value : Nat) : Prop :=
  ∃ index < slots, table index = some ⟨key, value⟩

/-- No key has two entries. -/
def KeysDistinct : Prop :=
  ∀ i < slots, ∀ j < slots, ∀ e e', table i = some e → table j = some e' → e.key = e'.key → i = j

/-- A table in which searches find what was inserted: no key occurs twice and every
entry is well placed. -/
structure Sound (table : Table Key) : Prop where
  distinct : KeysDistinct slots table
  placed : ∀ i < slots, ∀ e, table i = some e → WellPlaced hash slots table e.key i

end WellPlaced

variable {hash : Key → Nat} {slots : Nat} {table : Table Key} {key : Key} {index value : Nat}

section Search

variable [DecidableEq Key]

omit [DecidableEq Key] in
theorem mem_probeIndices (hslots : 0 < slots) :
  index ∈ probeIndices hash slots key ↔ index < slots
  := by
  have hhome : hash key % slots < slots := Nat.mod_lt _ hslots
  simp only [probeIndices, List.mem_map, mem_range]
  constructor
  · rintro ⟨offset, -, rfl⟩
    exact ringStep_lt hslots
  · intro hindex
    use ringDistance slots (hash key % slots) index
    exact ⟨ringDistance_lt hhome hindex, ringStep_ringDistance hhome hindex⟩

/-- A search stops, when there is a slot to stop at. -/
theorem probe_isSome (hindex : index < slots) (hstop : stopsAt table key index = true) :
  ∃ i, probe hash slots table key = some i
  := by
  have hmem : index ∈ probeIndices hash slots key := (mem_probeIndices (by omega)).mpr hindex
  exact isSome_iff_exists.mp (find?_isSome.mpr ⟨index, hmem, hstop⟩)

/-- A search stops at the first slot on its way that is empty or holds the key. -/
theorem probe_spec (h : probe hash slots table key = some index) :
  index < slots ∧ stopsAt table key index = true ∧
    ∀ j < slots, ringDistance slots (hash key % slots) j <
      ringDistance slots (hash key % slots) index → stopsAt table key j = false
  := by
  obtain ⟨hstop, before, after, hlist, hbefore⟩ := find?_eq_some_iff_append.mp h
  have hpos : before.length < slots := by
    have := congrArg length hlist
    simp [probeIndices] at this
    omega
  have hhome : hash key % slots < slots := Nat.mod_lt _ (by omega)
  -- the list of visited slots is read by position
  have hget : ∀ k < slots, (probeIndices hash slots key)[k]? =
      some (ringStep slots (hash key % slots) k) := by
    intro k hk
    simp [probeIndices, hk]
  have hindex : index = ringStep slots (hash key % slots) before.length := by
    have := hget before.length hpos
    rw [hlist] at this
    simpa using this
  have hlt : index < slots := hindex ▸ ringStep_lt (by omega)
  constructor
  · exact hlt
  constructor
  · exact hstop
  intro j hj hdist
  rw [hindex, ringDistance_ringStep hhome hpos] at hdist
  have hj' := hget _ (ringDistance_lt hhome hj)
  rw [hlist, ringStep_ringDistance hhome hj, getElem?_append_left hdist] at hj'
  simpa using hbefore j (mem_of_getElem? hj')

theorem stopsAt_eq_false :
  stopsAt table key index = false ↔ ∃ e, table index = some e ∧ e.key ≠ key
  := by
  unfold stopsAt
  cases table index <;> simp

theorem stopsAt_of_none (h : table index = none) :
  stopsAt table key index = true
  := by
  simp [stopsAt, h]

theorem stopsAt_of_key (h : table index = some ⟨key, value⟩) :
  stopsAt table key index = true
  := by
  simp [stopsAt, h]

/-- In a sound table the search for a key that is there stops at its entry. -/
theorem probe_of_mem (hsound : Sound hash slots table) (hindex : index < slots)
    (hentry : table index = some ⟨key, value⟩) :
  probe hash slots table key = some index
  := by
  obtain ⟨i, hi⟩ : ∃ i, probe hash slots table key = some i :=
    probe_isSome hindex (stopsAt_of_key hentry)
  obtain ⟨hlt, hstop, hbefore⟩ := probe_spec hi
  have hhome : hash key % slots < slots := Nat.mod_lt _ (by omega)
  rw [hi]
  congr 1
  by_contra hne
  rcases Nat.lt_or_ge (ringDistance slots (hash key % slots) i)
    (ringDistance slots (hash key % slots) index) with hdist | hdist
  · -- the search stopped earlier: not at an empty slot, so at another entry of the key
    have hfull := hsound.placed index hindex _ hentry i hlt hdist
    rcases htable : table i with _ | e
    · exact hfull htable
    · have hkey : e.key = key := by simpa [stopsAt, htable] using hstop
      exact hne (hsound.distinct i hlt index hindex e _ htable hentry hkey)
  · have hdist' := Nat.lt_of_le_of_ne hdist fun h => hne (ringDistance_inj hhome hindex hlt h).symm
    have := hbefore index hindex hdist'
    rw [stopsAt_of_key hentry] at this
    contradiction

/-- In a sound table a lookup returns exactly what the table holds. -/
theorem lookup_eq_some (hsound : Sound hash slots table) :
  lookup hash slots table key = some value ↔ Holds slots table key value
  := by
  constructor
  · intro h
    unfold lookup at h
    split at h
    · contradiction
    · rename_i index hprobe
      obtain ⟨hlt, hstop, -⟩ := probe_spec hprobe
      obtain ⟨e, he, rfl⟩ := map_eq_some_iff.mp h
      have hkey : e.key = key := by simpa [stopsAt, he] using hstop
      use index, hlt
      rw [he, ← hkey]
  · rintro ⟨index, hlt, hentry⟩
    rw [lookup, probe_of_mem hsound hlt hentry]
    simp [hentry]

end Search

/-! ### Insertion -/

section Insertion

/-- The first empty slot on the way of `key`, where an insertion puts it. -/
structure FirstEmpty (hash : Key → Nat) (slots : Nat) (table : Table Key) (key : Key)
    (index : Nat) : Prop where
  lt : index < slots
  empty : table index = none
  before : ∀ j < slots, ringDistance slots (hash key % slots) j <
    ringDistance slots (hash key % slots) index → table j ≠ none

/-- What is occupied stays occupied when a slot is filled. -/
theorem update_some_ne_none {j : Nat} {e : Entry Key} (h : table j ≠ none) :
  update table index (some e) j ≠ none
  := by
  rcases eq_or_ne j index with rfl | hne
  · simp
  · rwa [update_of_ne hne]

theorem FirstEmpty.wellPlaced (h : FirstEmpty hash slots table key index) :
  WellPlaced hash slots (update table index (some ⟨key, value⟩)) key index
  := fun j hj hdist => update_some_ne_none (h.before j hj hdist)

theorem holds_update_some (hlt : index < slots) (hempty : table index = none) {k : Key}
    {v : Nat} :
  Holds slots (update table index (some ⟨key, value⟩)) k v ↔
    (k = key ∧ v = value) ∨ Holds slots table k v
  := by
  constructor
  · rintro ⟨i, hi, hentry⟩
    rcases eq_or_ne i index with rfl | hne
    · left
      simpa [eq_comm] using hentry
    · right
      use i, hi
      rwa [update_of_ne hne] at hentry
  · rintro (⟨rfl, rfl⟩ | ⟨i, hi, hentry⟩)
    · use index, hlt
      simp
    · have hne : i ≠ index := by
        rintro rfl
        simp [hempty] at hentry
      use i, hi
      rwa [update_of_ne hne]

theorem keysDistinct_update_some (hdistinct : KeysDistinct slots table)
    (hnew : ∀ i < slots, ∀ e, table i = some e → e.key ≠ key) :
  KeysDistinct slots (update table index (some ⟨key, value⟩))
  := by
  intro i hi j hj e e' he he' hkeys
  rcases Updates.put he with ⟨rfl, rfl⟩ | ⟨_, hold⟩
  · rcases Updates.put he' with ⟨rfl, _⟩ | ⟨_, he'⟩
    · rfl
    · exact absurd hkeys.symm (hnew j hj e' he')
  · rcases Updates.put he' with ⟨rfl, rfl⟩ | ⟨_, he'⟩
    · exact absurd hkeys (hnew i hi e hold)
    · exact hdistinct i hi j hj e e' hold he' hkeys

/-- A table that holds fewer keys than it has slots has an empty slot. -/
theorem exists_empty (keys : List Key) (hdistinct : KeysDistinct slots table)
    (hheld : ∀ k v, Holds slots table k v → k ∈ keys) (hfew : keys.length < slots) :
  ∃ slot < slots, table slot = none
  := by
  by_contra! hfull
  have hentry : ∀ slot : Fin slots, ∃ e, table slot = some e :=
    fun slot => ne_none_iff_exists'.mp (hfull slot slot.isLt)
  choose entry hentry using hentry
  have hnodup : (ofFn fun slot => (entry slot).key).Nodup := by
    rw [nodup_ofFn]
    exact fun i j hij => Fin.ext (hdistinct i i.isLt j j.isLt _ _ (hentry i) (hentry j) hij)
  have hsub : (ofFn fun slot => (entry slot).key) ⊆ keys := by
    intro key hkey
    obtain ⟨slot, rfl⟩ := mem_ofFn.mp hkey
    exact hheld _ _ ⟨slot, slot.isLt, hentry slot⟩
  have hle := (hnodup.subperm hsub).length_le
  rw [length_ofFn] at hle
  omega

variable [DecidableEq Key]

/-- An insertion of a new key succeeds as long as a slot is empty. -/
theorem insert_of_empty {free : Nat} (hfree : free < slots) (hempty : table free = none)
    (hnew : ∀ i < slots, ∀ e, table i = some e → e.key ≠ key) :
  ∃ index, FirstEmpty hash slots table key index ∧
    insert hash slots table key value = .ok (update table index (some ⟨key, value⟩))
  := by
  obtain ⟨index, hprobe⟩ : ∃ i, probe hash slots table key = some i :=
    probe_isSome hfree (stopsAt_of_none hempty)
  obtain ⟨hlt, hstop, hbefore⟩ := probe_spec hprobe
  have hnone : table index = none := by
    rcases htable : table index with _ | e
    · rfl
    · have hkey : e.key = key := by simpa [stopsAt, htable] using hstop
      exact absurd hkey (hnew index hlt e htable)
  use index
  constructor
  · constructor
    · exact hlt
    · exact hnone
    · intro j hj hdist
      obtain ⟨e, he, -⟩ := stopsAt_eq_false.mp (hbefore j hj hdist)
      simp [he]
  · simp [insert, hprobe, hnone]

/-- Insertion of a new key keeps a table sound and adds that key alone. -/
theorem insert_sound (hsound : Sound hash slots table) {free : Nat} (hfree : free < slots)
    (hempty : table free = none) (hnew : ∀ v, ¬ Holds slots table key v) :
  ∃ table', insert hash slots table key value = .ok table' ∧ Sound hash slots table' ∧
    ∀ k v, Holds slots table' k v ↔ (k = key ∧ v = value) ∨ Holds slots table k v
  := by
  have hkeys : ∀ i < slots, ∀ e, table i = some e → e.key ≠ key := by
    rintro i hi e he rfl
    exact hnew e.value ⟨i, hi, he⟩
  obtain ⟨index, hins, hok⟩ := @insert_of_empty _ hash _ _ _ value _ _ hfree hempty hkeys
  use update table index (some ⟨key, value⟩), hok
  constructor
  · constructor
    · exact keysDistinct_update_some hsound.distinct hkeys
    · intro i hi e he
      rcases Updates.put he with ⟨rfl, rfl⟩ | ⟨_, he⟩
      · exact hins.wellPlaced
      · intro j hj hdist
        exact update_some_ne_none (hsound.placed i hi e he j hj hdist)
  · intro k v
    exact holds_update_some hins.lt hins.empty

end Insertion

/-! ### Removal -/

section Removal

variable {cursor barrier : Nat} {e : Entry Key}

/-- The state of a table while the entries from `cursor` on are inserted again: every
entry is well placed or still ahead, and no entry's way passes the empty slot
`barrier`. -/
structure Reinserting (hash : Key → Nat) (slots : Nat) (table : Table Key)
    (cursor barrier : Nat) : Prop where
  distinct : KeysDistinct slots table
  placed : ∀ i < slots, ∀ e, table i = some e →
    WellPlaced hash slots table e.key i ∨ Ahead slots table cursor i
  barrier_lt : barrier < slots
  barrier_empty : table barrier = none
  short : ∀ i < slots, ∀ e, table i = some e →
    ringDistance slots (hash e.key % slots) i < ringDistance slots (hash e.key % slots) barrier

/-- A sound table with an empty slot is in the middle of a reinsertion, wherever the
cursor is. -/
theorem Sound.reinserting (hsound : Sound hash slots table) (hlt : barrier < slots)
    (hempty : table barrier = none) :
  Reinserting hash slots table cursor barrier
  := by
  constructor
  · exact hsound.distinct
  · intro i hi e he
    left
    exact hsound.placed i hi e he
  · exact hlt
  · exact hempty
  · intro i hi e he
    by_contra hge
    have hhome : hash e.key % slots < slots := Nat.mod_lt _ (by omega)
    rcases Nat.lt_or_eq_of_le (Nat.not_lt.mp hge) with hdist | hdist
    · exact hsound.placed i hi e he barrier hlt hdist hempty
    · have := ringDistance_inj hhome hlt hi hdist
      subst this
      simp [hempty] at he

section

variable (h : Reinserting hash slots table cursor barrier)
include h

/-- Emptying the slot at the cursor leaves the entries that were not ahead of it, or
came through it, ahead of the next slot. -/
theorem Reinserting.take (hcursor : cursor < slots) :
  Reinserting hash slots (update table cursor none) ((cursor + 1) % slots) barrier
  := by
  constructor
  · intro i hi j hj e e' he he'
    exact h.distinct i hi j hj e e' (Updates.take he).2 (Updates.take he').2
  · intro i hi e he
    obtain ⟨hne, he⟩ := Updates.take he
    have hhome : hash e.key % slots < slots := Nat.mod_lt _ (by omega)
    -- the slots after the cursor up to the entry are untouched
    have hahead : Ahead slots table cursor i →
        Ahead slots (update table cursor none) ((cursor + 1) % slots) i := by
      intro hall j hj hdist
      have hlast : ringDistance slots ((cursor + 1) % slots) i <
          ringDistance slots ((cursor + 1) % slots) cursor := by
        have := ringDistance_succ hcursor hi hne
        have := ringDistance_lt hcursor hi
        have : ringDistance slots ((cursor + 1) % slots) cursor + 1 = slots := by
          rw [succ_mod_eq_ite hcursor]
          unfold ringDistance
          split <;> split <;> omega
        omega
      have hj' : j ≠ cursor := by
        rintro rfl
        omega
      rw [update_of_ne hj']
      apply hall j hj
      have := ringDistance_succ hcursor hj hj'
      have := ringDistance_succ hcursor hi hne
      omega
    rcases h.placed i hi e he with hplaced | hall
    · by_cases hthrough : ringDistance slots (hash e.key % slots) cursor <
          ringDistance slots (hash e.key % slots) i
      · right
        apply hahead
        intro j hj hdist
        have hle := ringDistance_through hhome hcursor hi hj hthrough hdist
        rcases Nat.lt_or_eq_of_le hle with hlt | heq
        · exact hplaced j hj hlt
        · rw [ringDistance_inj hhome hj hi heq, he]
          simp
      · left
        intro j hj hdist
        have hj' : j ≠ cursor := by
          rintro rfl
          exact hthrough hdist
        rw [update_of_ne hj']
        exact hplaced j hj hdist
    · right
      exact hahead hall
  · exact h.barrier_lt
  · simp [update_apply, h.barrier_empty]
  · intro i hi e he
    exact h.short i hi e (Updates.take he).2

/-- Putting an entry into the first empty slot on its way, before the barrier. -/
theorem Reinserting.put {index value : Nat} (hfirst : FirstEmpty hash slots table key index)
    (hnew : ∀ i < slots, ∀ e, table i = some e → e.key ≠ key)
    (hshort : ringDistance slots (hash key % slots) index < ringDistance slots (hash key % slots)
      barrier) :
  Reinserting hash slots (update table index (some ⟨key, value⟩)) cursor barrier
  := by
  constructor
  · exact keysDistinct_update_some h.distinct hnew
  · intro i hi e he
    rcases Updates.put he with ⟨rfl, rfl⟩ | ⟨_, he⟩
    · left
      exact hfirst.wellPlaced
    · apply (h.placed i hi e he).imp
      · exact fun hplaced j hj hdist => update_some_ne_none (hplaced j hj hdist)
      · exact fun hall j hj hdist => update_some_ne_none (hall j hj hdist)
  · exact h.barrier_lt
  · have hne : barrier ≠ index := by
      rintro rfl
      omega
    rw [update_of_ne hne]
    exact h.barrier_empty
  · intro i hi e he
    rcases Updates.put he with ⟨rfl, rfl⟩ | ⟨_, he⟩
    · exact hshort
    · exact h.short i hi e he

/-- Once the cursor stands at an empty slot, every entry is well placed. -/
theorem Reinserting.sound (hcursor : cursor < slots) (hempty : table cursor = none) :
  Sound hash slots table
  := by
  constructor
  · exact h.distinct
  · intro i hi e he
    rcases h.placed i hi e he with hplaced | hall
    · exact hplaced
    · have : ringDistance slots cursor cursor ≤ ringDistance slots cursor i := by
        simp [ringDistance]
      exact absurd hempty (hall cursor hcursor this)

end

theorem holds_update_none (hcursor : cursor < slots) (he : table cursor = some e) {k : Key}
    {v : Nat} :
  (k = e.key ∧ v = e.value) ∨ Holds slots (update table cursor none) k v ↔
    Holds slots table k v
  := by
  constructor
  · rintro (⟨rfl, rfl⟩ | ⟨i, hi, hentry⟩)
    · exact ⟨cursor, hcursor, he⟩
    · exact ⟨i, hi, (Updates.take hentry).2⟩
  · rintro ⟨i, hi, hentry⟩
    rcases eq_or_ne i cursor with rfl | hne
    · rw [he, some.injEq] at hentry
      simp [hentry]
    · right
      use i, hi
      rwa [update_of_ne hne]

variable [DecidableEq Key]

/-- The reinsertion ends before the barrier, in a sound table with the same entries. -/
theorem reinsertProbeCluster_spec {fuel : Nat}
    (h : Reinserting hash slots table cursor barrier) (hcursor : cursor < slots)
    (hfuel : ringDistance slots cursor barrier < fuel) :
  ∃ table', reinsertProbeCluster hash slots fuel table cursor = .ok table' ∧
    Sound hash slots table' ∧ ∀ k v, Holds slots table' k v ↔ Holds slots table k v
  := by
  -- the cursor comes one slot closer to the barrier with every entry
  induction fuel generalizing table cursor with
  | zero => omega
  | succ fuel ih =>
    unfold reinsertProbeCluster
    rcases hslot : table cursor with _ | e
    · exact ⟨table, rfl, h.sound hcursor hslot, fun _ _ => Iff.rfl⟩
    · have hnew : ∀ i < slots, ∀ e', update table cursor none i = some e' →
          e'.key ≠ e.key := by
        intro i hi e' he' hkey
        obtain ⟨hne, he'⟩ := Updates.take he'
        exact hne (h.distinct i hi cursor hcursor e' e he' hslot hkey)
      have hnone : update table cursor none cursor = none := by simp
      obtain ⟨index, hfirst, hok⟩ :=
        @insert_of_empty _ hash _ _ _ e.value _ _ hcursor hnone hnew
      have hbarrier : cursor ≠ barrier := by
        rintro rfl
        simp [h.barrier_empty] at hslot
      -- the way of the entry ends at the cursor at the latest
      have hshort : ringDistance slots (hash e.key % slots) index <
          ringDistance slots (hash e.key % slots) barrier := by
        have hfound : ringDistance slots (hash e.key % slots) index ≤
            ringDistance slots (hash e.key % slots) cursor := by
          by_contra hlt
          exact hfirst.before cursor hcursor (by omega) hnone
        have := h.short cursor hcursor e hslot
        omega
      have hnext : (cursor + 1) % slots < slots := Nat.mod_lt _ (by omega)
      have hcloser := ringDistance_succ hcursor h.barrier_lt hbarrier.symm
      obtain ⟨table', hrun, hsound, hholds⟩ :=
        ih ((h.take hcursor).put hfirst hnew hshort) hnext (by omega)
      simp only [hok]
      refine ⟨table', hrun, hsound, ?_⟩
      intro k v
      rw [hholds, holds_update_some hfirst.lt hfirst.empty, holds_update_none hcursor hslot]

/-- Removal from a sound table with an empty slot takes out the key alone. -/
theorem remove_sound (hsound : Sound hash slots table) (hlt : barrier < slots)
    (hempty : table barrier = none) :
  ∃ table', remove hash slots table key = .ok table' ∧ Sound hash slots table' ∧
    ∀ k v, Holds slots table' k v ↔ k ≠ key ∧ Holds slots table k v
  := by
  obtain ⟨index, hprobe⟩ : ∃ i, probe hash slots table key = some i :=
    probe_isSome hlt (stopsAt_of_none hempty)
  obtain ⟨hindex, hstop, -⟩ := probe_spec hprobe
  unfold remove
  simp only [hprobe]
  rcases hslot : table index with _ | e
  · use table, rfl, hsound
    intro k v
    constructor
    · rintro ⟨i, hi, hentry⟩
      constructor
      · rintro rfl
        rw [probe_of_mem hsound hi hentry, some.injEq] at hprobe
        subst hprobe
        simp [hslot] at hentry
      · exact ⟨i, hi, hentry⟩
    · exact fun h => h.2
  · have hkey : e.key = key := by simpa [stopsAt, hslot] using hstop
    have hstart : Reinserting hash slots table index barrier := hsound.reinserting hlt hempty
    have hnext : (index + 1) % slots < slots := Nat.mod_lt _ (by omega)
    obtain ⟨table', hrun, hsound', hholds⟩ :=
      reinsertProbeCluster_spec (hstart.take hindex) hnext (ringDistance_lt hnext hlt)
    use table', hrun, hsound'
    intro k v
    rw [hholds]
    constructor
    · rintro ⟨i, hi, hentry⟩
      obtain ⟨hne, hentry⟩ := Updates.take hentry
      constructor
      · rintro rfl
        exact hne (hsound.distinct i hi index hindex _ e hentry hslot hkey.symm)
      · exact ⟨i, hi, hentry⟩
    · rintro ⟨hne, hheld⟩
      rcases (holds_update_none hindex hslot).mpr hheld with ⟨rfl, -⟩ | h
      · exact absurd hkey hne
      · exact h

end Removal
end OpenAddressing
