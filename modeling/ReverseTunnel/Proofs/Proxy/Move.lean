import Mathlib.Data.List.Nodup
import ReverseTunnel.Proofs.Keyed
import ReverseTunnel.Proofs.Proxy.Judging
import ReverseTunnel.Proxy.Table

/-!
What a step of a session table can do.

In a table in which no connection occurs twice and no session id twice, a step is
one of the moves below (`move_step`). Each says which connection it takes from
where, so that the invariants of tables go through move by move and open no
definition of the table again. `wellFormed_step` is the first of them: the steps
keep connections and session ids distinct.
-/

namespace ReverseTunnel.Proxy

open Session

namespace Table

/-- The connections of the two sides of a pair. -/
def pairKeys (p : Paired) : List Nat := [p.relay.front.key, p.relay.back.key]

/-- The connections of a table. -/
def keys (t : Table) : List Nat :=
  t.judging.map (·.party.key) ++ t.waiting.map (·.party.key) ++ t.paired.flatMap pairKeys

/-- No connection occurs twice in a table, and no two users wait under one id. -/
structure WellFormed (t : Table) : Prop where
  keys : t.keys.Nodup
  sessions : (t.waiting.map (·.session)).Nodup

end Table

open Table

/-- A connection that was judged is taken for a user, because of what it sent or
because its time is up. -/
inductive TakenForUser (w : Surroundings) (j : Judged) : TableEvent → Party → Bytes → Prop where
  | shown {p : Party} {buffered : Bytes} (sound : j.party.socket.broken = false)
      (key : p.key = j.party.key) (read : ReadOn j.buffer j.party.socket buffered p.socket) :
      TakenForUser w j (.look j.party.key) p buffered
  | late (due : j.deadline ≤ w.now) : TakenForUser w j (.timeUp j.party.key) j.party j.buffer

theorem TakenForUser.key {w : Surroundings} {j : Judged} {e : TableEvent} {p : Party}
    {buffered : Bytes} (h : TakenForUser w j e p buffered) : p.key = j.party.key := by
  cases h with
  | shown _ key _ => exact key
  | late _ => rfl

theorem TakenForUser.read {w : Surroundings} {j : Judged} {e : TableEvent} {p : Party}
    {buffered : Bytes} (h : TakenForUser w j e p buffered) :
    ReadOn j.buffer j.party.socket buffered p.socket := by
  cases h with
  | shown _ _ read => exact read
  | late _ => exact .rfl

/-- The drops of users that waited under an id. -/
def displaced (session : UInt32) (ws : List Waiting) : List TableEffect :=
  (ws.filter (·.session = session)).map fun w => .drop w.party.key

/-- What a step of a table can do. -/
inductive Move (w : Surroundings) (t : Table) : TableEvent → TableStep → Prop where
  | stay (e : TableEvent) : Move w t e { table := t, ids := w.ids }
  | accept (key : Nat) : Move w t (.accept key) { table := t.accept w.now key, ids := w.ids }
  | receive (key : Nat) (a : Arrival) :
      Move w t (.receive key a) { table := t.receive key a, ids := w.ids }
  /-- More is read from a connection, and shows nothing yet. -/
  | read {l m : List Judged} {j : Judged} {seen : Bytes} {s : Socket}
      (split : t.judging = l ++ j :: m) (read : ReadOn j.buffer j.party.socket seen s) :
      Move w t (.look j.party.key)
        { table := { t with
            judging := l ++ { j with party := { j.party with socket := s }, buffer := seen } :: m }
          ids := w.ids }
  /-- A connection ends or breaks before it shows anything. -/
  | lose {l m : List Judged} {j : Judged} (split : t.judging = l ++ j :: m) :
      Move w t (.look j.party.key)
        { table := { t with judging := l ++ m }, ids := w.ids, effects := [.drop j.party.key] }
  /-- A user is parked and announced. -/
  | register {e : TableEvent} {l m : List Judged} {j : Judged} {p : Party} {buffered : Bytes}
      (split : t.judging = l ++ j :: m) (taken : TakenForUser w j e p buffered)
      (accepts : w.ownerAccepts = true) :
      Move w t e
        { table := { t with
            judging := l ++ m
            waiting := others w.ids.next t.waiting ++ [⟨p, w.ids.next, buffered, w.now⟩] }
          ids := w.ids.draw.2
          effects := .count ⟨.userConnections, 1⟩ :: displaced w.ids.next t.waiting ++
            [.announce w.ids.next] }
  /-- A user is dropped because its announcement is refused. -/
  | refuse {e : TableEvent} {l m : List Judged} {j : Judged} {p : Party} {buffered : Bytes}
      (split : t.judging = l ++ j :: m) (taken : TakenForUser w j e p buffered)
      (accepts : w.ownerAccepts = false) :
      Move w t e
        { table := { t with judging := l ++ m, waiting := others w.ids.next t.waiting }
          ids := w.ids.draw.2
          effects := .count ⟨.userConnections, 1⟩ :: displaced w.ids.next t.waiting ++
            [.announce w.ids.next, .drop p.key] }
  /-- A data connection is paired with the one user that waits under its id. -/
  | pair {l m : List Judged} {j : Judged} {a b : List Waiting} {u : Waiting} {s : Socket}
      {rest : Bytes} (split : t.judging = l ++ j :: m) (sound : j.party.socket.broken = false)
      (read : ReadOn j.buffer j.party.socket (Handshake.encode u.session ++ rest) s)
      (user : t.waiting = a ++ u :: b) (alone : ∀ v ∈ a ++ b, v.session ≠ u.session) :
      Move w t (.look j.party.key)
        { table := { t with
            judging := l ++ m
            waiting := a ++ b
            paired := t.paired ++ [join u { j.party with socket := s } rest] }
          ids := w.ids
          effects := [.count ⟨.dataConnections, 1⟩, .count ⟨.sessionsPaired, 1⟩] }
  /-- A data connection is dropped because nobody waits under its id. -/
  | stale {l m : List Judged} {j : Judged} {session : UInt32}
      (split : t.judging = l ++ j :: m) (nobody : ∀ v ∈ t.waiting, v.session ≠ session) :
      Move w t (.look j.party.key)
        { table := { t with judging := l ++ m }
          ids := w.ids
          effects := [.count ⟨.dataConnections, 1⟩, .count ⟨.staleDataConnections, 1⟩,
            .drop j.party.key] }
  | evict (ttl : Nat) : Move w t (.evict ttl) (t.evict w ttl)
  | clear : Move w t .clear (t.clear w)
  /-- A relay goes on. -/
  | relay {l m : List Paired} {p : Paired} {e : RelayEvent} {r : Relay} {es : List RelayEffect}
      (split : t.paired = l ++ p :: m) (step : p.relay.step e = .goesOn r es) :
      Move w t (.relay p.relay.back.key e)
        { table := { t with paired := l ++ { p with relay := r } :: m }
          ids := w.ids
          effects := es.map .relay }
  /-- A relay closes: all was copied. -/
  | close {l m : List Paired} {p : Paired} {e : RelayEvent} {up down : Nat}
      (split : t.paired = l ++ p :: m) (step : p.relay.step e = .closes up down) :
      Move w t (.relay p.relay.back.key e)
        { table := { t with paired := l ++ m }
          ids := w.ids
          effects := [.count ⟨.relayIngressBytes, up + p.buffered⟩,
            .count ⟨.relayEgressBytes, down + p.rest⟩, .drop p.relay.front.key,
            .drop p.relay.back.key] }
  /-- A relay is aborted. -/
  | abort {l m : List Paired} {p : Paired} {e : RelayEvent}
      (split : t.paired = l ++ p :: m) (step : p.relay.step e = .aborts) :
      Move w t (.relay p.relay.back.key e)
        { table := { t with paired := l ++ m }
          ids := w.ids
          effects := [.drop p.relay.front.key, .drop p.relay.back.key] }

namespace Table

variable {w : Surroundings} {t : Table}

theorem WellFormed.judging (h : t.WellFormed) : (t.judging.map (·.party.key)).Nodup := by
  have := h.keys
  rw [Table.keys, List.append_assoc, List.nodup_append] at this
  exact this.1

theorem WellFormed.backs (h : t.WellFormed) : (t.paired.map (·.relay.back.key)).Nodup := by
  have := h.keys
  rw [Table.keys, List.nodup_append] at this
  refine List.Nodup.sublist ?_ this.2.1
  induction t.paired with
  | nil => exact .slnil
  | cons p ps ih => exact .cons _ (.cons_cons _ ih)

theorem WellFormed.judged (h : t.WellFormed) {key : Nat} {j : Judged}
    (hf : t.judging.find? (·.party.key = key) = some j) :
    j.party.key = key ∧ ∃ l m, t.judging = l ++ j :: m ∧ dismiss key t.judging = l ++ m ∧
      ∀ g : Judged → Judged,
        t.judging.map (fun k => if k.party.key = key then g k else k) = l ++ g j :: m := by
  obtain ⟨hj, l, m, split, hl, hm⟩ :=
    Keyed.alone_of_find? (f := fun j : Judged => j.party.key) hf h.judging
  refine ⟨hj, l, m, split, ?_, ?_⟩
  · rw [split]
    exact Keyed.filter_ne_of_alone (f := fun j : Judged => j.party.key) hj hl hm
  · intro g
    rw [split]
    exact Keyed.map_at_of_alone (f := fun j : Judged => j.party.key) g hj hl hm

theorem move_park {e : TableEvent} {l m : List Judged} {j : Judged} {p : Party}
    {buffered : Bytes} (split : t.judging = l ++ j :: m) (taken : TakenForUser w j e p buffered) :
    Move w t e ({ t with judging := l ++ m }.park w p buffered) := by
  cases ha : w.ownerAccepts with
  | true =>
    simp only [park, ha, if_true]
    exact .register split taken ha
  | false =>
    simp only [park, ha, Bool.false_eq_true, if_false]
    exact .refuse split taken ha

theorem move_pair {l m : List Judged} {j : Judged} {s : Socket} {session : UInt32}
    {rest : Bytes} (h : t.WellFormed) (split : t.judging = l ++ j :: m)
    (sound : j.party.socket.broken = false)
    (read : ReadOn j.buffer j.party.socket (Handshake.encode session ++ rest) s) :
    Move w t (.look j.party.key)
      ({ t with judging := l ++ m }.pair w { j.party with socket := s } session rest) := by
  unfold pair
  cases hf : t.waiting.find? (·.session = session) with
  | none =>
    simpa only [hf] using Move.stale split (Keyed.none_of_find? hf)
  | some u =>
    obtain ⟨hu, a, b, hw, ha, hb⟩ := Keyed.alone_of_find? (f := Waiting.session) hf h.sessions
    have hothers : others session t.waiting = a ++ b := by
      rw [hw]
      exact Keyed.filter_ne_of_alone hu ha hb
    subst hu
    have alone : ∀ v ∈ a ++ b, v.session ≠ u.session := by
      intro v hv
      rcases List.mem_append.mp hv with hv | hv
      · exact ha v hv
      · exact hb v hv
    simpa only [hf, hothers] using Move.pair split sound read hw alone

theorem move_look (h : t.WellFormed) (key : Nat) : Move w t (.look key) (t.look w key) := by
  unfold look
  cases hf : t.judging.find? (·.party.key = key) with
  | none => exact .stay _
  | some j =>
    obtain ⟨hj, l, m, split, hdismiss, hmap⟩ := h.judged hf
    subst hj
    simp only [hdismiss]
    split
    · exact .lose split
    · rename_i hb
      have sound : j.party.socket.broken = false := by simpa using hb
      split
      · rename_i v seen s hv
        have read := readOn_look hv
        have acc := accounts_of_look hv
        cases v with
        | user buffered =>
          rw [show buffered = seen from acc]
          exact move_park split (.shown (p := { j.party with socket := s }) sound rfl read)
        | data session rest =>
          rw [show seen = Handshake.encode session ++ rest from acc] at read
          exact move_pair h split sound read
        | closed => exact .lose split
      · rename_i seen s hv
        simpa only [hmap] using Move.read split (readOn_look hv)

theorem move_timeUp (h : t.WellFormed) (key : Nat) :
    Move w t (.timeUp key) (t.timeUp w key) := by
  unfold timeUp
  cases hf : t.judging.find? (·.party.key = key) with
  | none => exact .stay _
  | some j =>
    obtain ⟨hj, l, m, split, hdismiss, -⟩ := h.judged hf
    subst hj
    simp only [hdismiss]
    split
    · rename_i due
      exact move_park split (.late due)
    · exact .stay _

theorem move_relay (h : t.WellFormed) (key : Nat) (e : RelayEvent) :
    Move w t (.relay key e) (t.relay w key e) := by
  unfold relay pairOf?
  cases hf : t.paired.find? (·.relay.back.key = key) with
  | none => exact .stay _
  | some p =>
    obtain ⟨hp, l, m, split, hl, hm⟩ :=
      Keyed.alone_of_find? (f := fun p : Paired => p.relay.back.key) hf h.backs
    have hpart : part key t.paired = l ++ m := by
      rw [split]
      exact Keyed.filter_ne_of_alone (f := fun p : Paired => p.relay.back.key) hp hl hm
    subst hp
    simp only [hpart]
    cases hs : p.relay.step e with
    | goesOn r es =>
      have hmap := Keyed.map_at_of_alone (f := fun p : Paired => p.relay.back.key)
        (fun q : Paired => { q with relay := r }) rfl hl hm
      rw [← split] at hmap
      simpa only [hmap] using Move.relay split hs
    | closes up down => exact .close split hs
    | aborts => exact .abort split hs

/-- Every step of a well-formed table is a move. -/
theorem move_step (h : t.WellFormed) (e : TableEvent) : Move w t e (t.step w e) := by
  cases e with
  | accept key => exact .accept key
  | receive key a => exact .receive key a
  | look key => exact move_look h key
  | timeUp key => exact move_timeUp h key
  | relay key e => exact move_relay h key e
  | evict ttl => exact .evict ttl
  | clear => exact .clear

end Table

end ReverseTunnel.Proxy
