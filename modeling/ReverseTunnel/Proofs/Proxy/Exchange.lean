import Mathlib.Logic.Function.Basic
import ReverseTunnel.Proofs.Course
import ReverseTunnel.Proofs.Proxy.Connections

/-!
Session tables that share one source of session ids.

An exchange is a family of tables of any size. Connections come in at its tables under
numbers that were never used before, their far ends act, time passes, and the tables
look, pair, relay, evict and clear in any order. Every table of an exchange makes one
of its moves at a time (`move_table`), and no connection is ever in two tables
(`wellFormed`). From this the life of a connection is read off: it is judged, may
wait, may be paired, is gone, and stays gone.
-/

namespace ReverseTunnel.Proxy

open Session

/-- What is done about the connections of a table. -/
inductive Task where
  | look (key : Nat)
  | timeUp (key : Nat)
  | relay (key : Nat) (e : RelayEvent)
  | evict (ttl : Nat)
  | clear
  deriving DecidableEq, Repr

/-- The event of the table. -/
def Task.event : Task → TableEvent
  | .look key => .look key
  | .timeUp key => .timeUp key
  | .relay key e => .relay key e
  | .evict ttl => .evict ttl
  | .clear => .clear

/-- What can happen to an exchange. -/
inductive Occurrence (ι : Type) where
  /-- A connection comes in at a table. -/
  | comeIn (i : ι)
  /-- The far end of a connection does something. -/
  | receive (key : Nat) (a : Arrival)
  /-- A table does its work, while its owner's link accepts announcements or not. -/
  | act (i : ι) (accepts : Bool) (task : Task)
  /-- Some milliseconds pass. -/
  | advance (ms : Nat)
  deriving DecidableEq, Repr

/-- Tables, and what they share. -/
structure Exchange (ι : Type) where
  tables : ι → Table
  ids : IdSource
  now : Nat := 0
  /-- The number of the next connection that comes in. -/
  nextKey : Nat := 1

namespace Exchange

variable {ι : Type}

/-- Empty tables with their judging delays, and ids from the given one on. -/
def start (delays : ι → Nat) (first : UInt32) : Exchange ι :=
  { tables := fun i => { judgeDelay := delays i }, ids := .startingAt first }

/-- The world around a table. -/
def around (x : Exchange ι) (accepts : Bool) : Surroundings :=
  { now := x.now, ids := x.ids, ownerAccepts := accepts }

/-- What a table does next. -/
def turn (x : Exchange ι) (i : ι) (accepts : Bool) (task : Task) : TableStep :=
  (x.tables i).step (x.around accepts) task.event

/-- The tables are well-formed, and each connection is in one of them. -/
structure WellFormed (x : Exchange ι) : Prop where
  tables : ∀ i, (x.tables i).WellFormed
  apart : ∀ i j k, k ∈ (x.tables i).keys → k ∈ (x.tables j).keys → i = j
  known : ∀ i k, k ∈ (x.tables i).keys → k < x.nextKey

variable {x : Exchange ι} {o : Occurrence ι}

theorem wellFormed_start (delays : ι → Nat) (first : UInt32) :
    (start delays first).WellFormed where
  tables i := ⟨List.nodup_nil, List.nodup_nil⟩
  apart i j k hk := by simp [start, Table.keys] at hk
  known i k hk := by simp [start, Table.keys] at hk

theorem move_turn (h : x.WellFormed) (i : ι) (accepts : Bool) (task : Task) :
    Move (x.around accepts) (x.tables i) task.event (x.turn i accepts task) :=
  Table.move_step (h.tables i) _

variable [DecidableEq ι]

/-- The exchange after one of its tables has changed. -/
def change (x : Exchange ι) (i : ι) (t : Table) : Exchange ι :=
  { x with tables := Function.update x.tables i t }

/-- One step of an exchange. -/
def step (x : Exchange ι) : Occurrence ι → Exchange ι × List TableEffect
  | .comeIn i =>
    ({ x.change i ((x.tables i).accept x.now x.nextKey) with nextKey := x.nextKey + 1 }, [])
  | .receive key a => ({ x with tables := fun i => (x.tables i).receive key a }, [])
  | .act i accepts task =>
    let t := x.turn i accepts task
    ({ x.change i t.table with ids := t.ids }, t.effects)
  | .advance ms => ({ x with now := x.now + ms }, [])

theorem tables_change (x : Exchange ι) (i j : ι) (t : Table) :
    (x.change i t).tables j = if j = i then t else x.tables j := by
  simp only [change, Function.update_apply]

theorem event_ne_accept (task : Task) (k : Nat) : task.event ≠ .accept k := by
  cases task <;> simp [Task.event]

theorem event_ne_receive (task : Task) (k : Nat) (a : Arrival) : task.event ≠ .receive k a := by
  cases task <;> simp [Task.event]

theorem event_injective {a b : Task} (h : a.event = b.event) : a = b := by
  cases a <;> cases b <;> simp_all [Task.event]

/-- What a table does in a step of the exchange. -/
structure Turned (x : Exchange ι) (o : Occurrence ι) (j : ι) (w : Surroundings) (e : TableEvent)
    (r : TableStep) : Prop where
  move : Move w (x.tables j) e r
  table : (x.step o).1.tables j = r.table
  ids : w.ids = x.ids
  accept : ∀ k, e = .accept k → k = x.nextKey ∧ o = .comeIn j
  act : ∀ task : Task, e = task.event → ∃ accepts, o = .act j accepts task
  effects : ∀ eff ∈ r.effects, eff ∈ (x.step o).2

/-- In every step of an exchange each of its tables makes a move. -/
theorem move_table (h : x.WellFormed) (o : Occurrence ι) (j : ι) : ∃ w e r, Turned x o j w e r := by
  have hquiet : ∀ (k : Nat) (a : Arrival) (task : Task), .receive k a ≠ task.event :=
    fun k a task hk => event_ne_receive task k a hk.symm
  -- a table that is not concerned stays as it is, as if nothing arrived anywhere
  have hstay : (x.step o).1.tables j = x.tables j → ∃ w e r, Turned x o j w e r := fun htable =>
    ⟨x.around true, .receive x.nextKey .ended, _, .stay _, htable, rfl, by simp,
      fun task hk => absurd hk (hquiet _ _ task), by simp⟩
  cases o with
  | comeIn i =>
    by_cases hj : j = i
    · subst hj
      refine ⟨x.around true, .accept x.nextKey, _, .accept _, ?_, rfl, ?_,
        fun task hk => absurd hk.symm (event_ne_accept task _), by simp⟩
      · simp only [step, tables_change, if_true]
        rfl
      · simp
    · exact hstay (by simp only [step, tables_change, if_neg hj])
  | receive key a =>
    exact ⟨x.around true, .receive key a, _, .receive key a, rfl, rfl, by simp,
      fun task hk => absurd hk (hquiet _ _ task), by simp⟩
  | act i accepts task =>
    by_cases hj : j = i
    · subst hj
      refine ⟨_, _, _, move_turn h j accepts task, ?_, rfl,
        fun k hk => absurd hk (event_ne_accept task k),
        fun task' hk => ⟨accepts, by rw [event_injective hk]⟩, fun _ heff => heff⟩
      simp only [step, tables_change, if_true]
    · exact hstay (by simp only [step, tables_change, if_neg hj])
  | advance ms => exact hstay rfl

/-- The connections in a table were in it before, but for the one that comes in. -/
theorem keys_of_step (h : x.WellFormed) {j : ι} {k : Nat}
    (hk : k ∈ ((x.step o).1.tables j).keys) :
    k ∈ (x.tables j).keys ∨ (k = x.nextKey ∧ o = .comeIn j) := by
  obtain ⟨w, e, r, hm, hr, -, hacc, -, -⟩ := move_table h o j
  rw [hr] at hk
  by_cases ha : ∃ k', e = .accept k'
  · obtain ⟨k', rfl⟩ := ha
    obtain ⟨rfl, ho⟩ := hacc k' rfl
    cases hm with
    | stay => exact .inl hk
    | register _ taken _ | refuse _ taken _ => cases taken
    | accept =>
      rcases List.mem_cons.mp ((Table.keys_accept _ _ _).subset hk) with hk | hk
      · exact .inr ⟨hk, ho⟩
      · exact .inl hk
  · exact .inl ((Table.keys_subperm hm fun k' hk' => ha ⟨k', hk'⟩).subset hk)

theorem nextKey_of_step (x : Exchange ι) (o : Occurrence ι) :
    (x.step o).1.nextKey = x.nextKey ∨
      ((x.step o).1.nextKey = x.nextKey + 1 ∧ ∃ i, o = .comeIn i) := by
  cases o with
  | comeIn i => exact .inr ⟨rfl, i, rfl⟩
  | receive key a => exact .inl rfl
  | act i accepts task => exact .inl rfl
  | advance ms => exact .inl rfl

theorem nextKey_le_step (x : Exchange ι) (o : Occurrence ι) :
    x.nextKey ≤ (x.step o).1.nextKey := by
  rcases nextKey_of_step x o with h | ⟨h, -⟩ <;> omega

theorem wellFormed_table (h : x.WellFormed) (o : Occurrence ι) (j : ι) :
    ((x.step o).1.tables j).WellFormed := by
  cases o with
  | comeIn i =>
    simp only [step, tables_change]
    split
    · apply Table.wellFormed_step (w := x.around true) (e := .accept x.nextKey) (h.tables i)
      intro k hk hmem
      cases hk
      exact Nat.lt_irrefl _ (h.known i _ hmem)
    · exact h.tables j
  | receive key a =>
    exact Table.wellFormed_step (w := x.around true) (e := .receive key a) (h.tables j) (by simp)
  | act i accepts task =>
    simp only [step, tables_change]
    split
    · exact Table.wellFormed_step (h.tables i) fun k hk => absurd hk (event_ne_accept task k)
    · exact h.tables j
  | advance ms => exact h.tables j

theorem wellFormed_step (h : x.WellFormed) (o : Occurrence ι) : (x.step o).1.WellFormed where
  tables := wellFormed_table h o
  apart i j k hi hj := by
    rcases keys_of_step h hi with hi | ⟨hi, rfl⟩ <;> rcases keys_of_step h hj with hj | ⟨hj, ho⟩
    · exact h.apart i j k hi hj
    · exact absurd (h.known i k hi) (by omega)
    · exact absurd (h.known j k hj) (by omega)
    · cases ho
      rfl
  known i k hk := by
    rcases keys_of_step h hk with hk | ⟨rfl, rfl⟩
    · exact Nat.lt_of_lt_of_le (h.known i k hk) (nextKey_le_step x o)
    · exact Nat.lt_succ_self _

end Exchange

end ReverseTunnel.Proxy
