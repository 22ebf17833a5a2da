import ReverseTunnel.Proofs.Server.Announcing
import ReverseTunnel.Proofs.Server.NameContest

/-!
Announcements over a whole course of a server.

What is proved (`announces_in_order`):
1. Every proxy was granted on its connection before anything was announced there
   (`granted_before`), and one announcement is queued for each user that is taken.
2. All proxies draw from one source, so that the ids announced on whatever connections are those
   of its circle in order (`ids_eq`). None is announced twice before it has gone round.
3. Whoever waits in a table was announced when it was registered (`announced_before`), and who
   could not be announced is dropped.

Nothing is assumed.

What is not said: whether an announcement reaches the owner, which is a matter of its link
(`Proofs.Server.Flushing`), and whether the owner dials back.
-/

namespace ReverseTunnel.Server.Run

open Control
open Proxy (Table Waiting)
open Session (ConnId IdSource maxId)
open Wire (Message)

variable {a : Seal.Aead} {o : Options} {first : UInt32} {r : Run} {c d : ConnId} {e : Event}

theorem ids_cases (a : Seal.Aead) (r : Run) (e : Event) :
    (r.step a e).1.ids = r.ids ∨ (r.step a e).1.ids = r.ids.draw.2 := by
  cases he : e.ofProxy? with
  | none => exact .inl (ids_of_none a r he)
  | some c =>
    rcases proxy_cases a r he with ⟨user, buffered, -, h⟩ | ⟨hids, -⟩
    · exact .inr h.draws
    · exact .inl hids

section Moments

variable (course : Course (step a) (start o (.startingAt first)))

/-- What the event of a moment queues on a connection. -/
def queuedAt (c : ConnId) (n : Nat) : List Message := (course.state n).queuedOn (course.state (n + 1)) c

/-- How many session ids were drawn before a moment. -/
def drawn : Nat → Nat
  | 0 => 0
  | n + 1 => drawn n + if (course.state (n + 1)).ids = (course.state n).ids then 0 else 1

variable {course} {n : Nat} {session : UInt32}

theorem queuedAt_eq (c : ConnId) (n : Nat) : queuedAt course c n =
    (course.state n).queuedOn ((course.state n).step a (course.happens n)).1 c := rfl

theorem ids_eq (n : Nat) : (course.state n).ids = (IdSource.startingAt first).after (drawn course n) := by
  induction n with
  | zero => rfl
  | succ n ih =>
    rw [drawn]
    split
    · rename_i hsame
      rw [hsame, ih]
      rfl
    · rename_i hdrawn
      have hdraws := (ids_cases a (course.state n) (course.happens n)).resolve_left hdrawn
      show ((course.state n).step a (course.happens n)).1.ids = _
      rw [hdraws, ih]
      rfl

theorem drawn_le {m n : Nat} (hmn : m ≤ n) : drawn course m ≤ drawn course n := by
  induction hmn with
  | refl => exact Nat.le_refl _
  | step _ ih => exact Nat.le_trans ih (Nat.le_add_right _ _)

/-- A source never gives the same id twice in a row. -/
theorem draw_ne {s : IdSource} (h : s.Valid) : s.draw.2 ≠ s := by
  intro heq
  have hnext : s.next = s.draw.2.next := congrArg IdSource.next heq.symm
  exact IdSource.next_after_ne h (show 0 < 1 by decide) (by decide) hnext

theorem drawn_of_registered {user : Party} {buffered : Bytes}
    (h : Registered (course.state n) c user buffered ((course.state n).step a (course.happens n))) :
    drawn course (n + 1) = drawn course n + 1 := by
  have hvalid : (course.state n).ids.Valid := by
    rw [ids_eq n]
    exact IdSource.valid_after (IdSource.valid_startingAt first) _
  rw [drawn, if_neg]
  intro hsame
  exact draw_ne hvalid (h.draws.symm.trans hsame)

/-- A session is announced when a user is registered under it. -/
theorem registered_of_queued (h : .openDataConn session ∈ queuedAt course c n) :
    ∃ user buffered, (course.state n).TakesUser (course.happens n) c user buffered ∧
      Registered (course.state n) c user buffered ((course.state n).step a (course.happens n)) ∧
      session = (course.state n).ids.next ∧ queuedAt course c n = [.openDataConn session] := by
  rw [queuedAt_eq] at h ⊢
  by_cases he : (course.happens n).ofProxy? = some c
  · rcases proxy_cases a (course.state n) he with ⟨user, buffered, htakes, hreg⟩ | ⟨-, hnone, -⟩
    · obtain ⟨p, p', hp, hp', hgone, houtcome⟩ := hreg.outcome
      rcases houtcome with ⟨-, hqueued, -⟩ | ⟨hnone, -⟩
      · rw [hqueued] at h ⊢
        cases List.mem_singleton.mp h
        exact ⟨user, buffered, htakes, hreg, rfl, rfl⟩
      · rw [hnone] at h
        cases h
    · rw [hnone] at h
      cases h
  · exact absurd h (not_announced a _ he session)

/-- A proxy was there before an event, or its connection is told with it that its request is
granted, or shut. -/
theorem proxy_before {p' : DataProxy} (hp' : (course.state (n + 1)).proxy? c = some p') :
    (∃ p, (course.state n).proxy? c = some p) ∨ (course.state (n + 1)).Shut c ∨
      ∃ k ∈ queuedAt course c n, Granted k := by
  by_cases he : (course.happens n).ofProxy? = some c
  · rcases proxy_cases a (course.state n) he with ⟨user, buffered, -, hreg⟩ | ⟨-, -, hwas⟩
    · obtain ⟨p, -, hp, -⟩ := hreg.outcome
      exact .inl ⟨p, hp⟩
    · obtain ⟨p, hp, -⟩ := hwas p' hp'
      exact .inl ⟨p, hp⟩
  · rcases other_cases a (course.state n) he with hsame | ⟨-, hnew⟩
    · change ((course.state (n + 1)).proxy? c).map (·.table) = _ at hsame
      rw [hp'] at hsame
      obtain ⟨p, hp, -⟩ := Option.map_eq_some_iff.mp hsame.symm
      exact .inl ⟨p, hp⟩
    · exact .inr (hnew p' hp').2

theorem granted_before : ∀ n p, (course.state n).proxy? c = some p →
    (course.state n).Shut c ∨ ∃ m, m < n ∧ ∃ k ∈ queuedAt course c m, Granted k := by
  intro n
  induction n with
  | zero => nofun
  | succ n ih =>
    intro p' hp'
    rcases proxy_before hp' with ⟨p, hp⟩ | hshut | hgranted
    · rcases ih p hp with hshut | ⟨m, hm, hk⟩
      · exact .inl (hshut.turn (turn a _ _))
      · exact .inr ⟨m, Nat.lt_succ_of_lt hm, hk⟩
    · exact .inl hshut
    · exact .inr ⟨n, Nat.lt_succ_self n, hgranted⟩

theorem waits_before {p' : DataProxy} (hp' : (course.state (n + 1)).proxy? c = some p')
    {v : Waiting} (hv : v ∈ p'.table.waiting) :
    (∃ p, (course.state n).proxy? c = some p ∧ p.table.Waits v.party.key v.session) ∨
      ∃ user buffered, (course.state n).TakesUser (course.happens n) c user buffered ∧
        user.key = v.party.key ∧ queuedAt course c n = [.openDataConn v.session] := by
  by_cases he : (course.happens n).ofProxy? = some c
  · rcases proxy_cases a (course.state n) he with ⟨user, buffered, htakes, hreg⟩ | ⟨-, -, hwas⟩
    · obtain ⟨p, q, hp, hq, -, houtcome⟩ := hreg.outcome
      cases Option.some.inj (hp'.symm.trans hq)
      rcases houtcome with ⟨-, hqueued, hwaiting⟩ | ⟨-, -, hwaiting, -⟩
      · rw [hwaiting] at hv
        rcases List.mem_append.mp hv with hv | hv
        · exact .inl ⟨p, hp, Table.waits_of_mem_others hv⟩
        · rw [List.mem_singleton.mp hv]
          exact .inr ⟨user, buffered, htakes, rfl, hqueued⟩
      · rw [hwaiting] at hv
        exact .inl ⟨p, hp, Table.waits_of_mem_others hv⟩
    · obtain ⟨p, hp, hwaits⟩ := hwas p' hp'
      exact .inl ⟨p, hp, hwaits v hv⟩
  · rcases other_cases a (course.state n) he with hsame | ⟨-, hnew⟩
    · change ((course.state (n + 1)).proxy? c).map (·.table) = _ at hsame
      rw [hp'] at hsame
      obtain ⟨p, hp, htable⟩ := Option.map_eq_some_iff.mp hsame.symm
      have htable' : p'.table = p.table := htable.symm
      rw [htable'] at hv
      exact .inl ⟨p, hp, Table.waits_of_mem hv⟩
    · rw [(hnew p' hp').1] at hv
      cases hv

theorem announced_before : ∀ n p, (course.state n).proxy? c = some p → ∀ v ∈ p.table.waiting,
    ∃ m user buffered, m < n ∧ (course.state m).TakesUser (course.happens m) c user buffered ∧
      user.key = v.party.key ∧ queuedAt course c m = [.openDataConn v.session] := by
  intro n
  induction n with
  | zero => nofun
  | succ n ih =>
    intro p' hp' v hv
    rcases waits_before hp' hv with ⟨p, hp, u, hu, hkey, hsession⟩ | ⟨user, buffered, hnow⟩
    · obtain ⟨m, user, buffered, hm, htakes, huser, hqueued⟩ := ih p hp u hu
      exact ⟨m, user, buffered, Nat.lt_succ_of_lt hm, htakes, huser.trans hkey, hsession ▸ hqueued⟩
    · exact ⟨n, user, buffered, Nat.lt_succ_self n, hnow⟩

/-- A session that is announced is that of the one connection that was taken for a user. -/
theorem user_of_queued (h : .openDataConn session ∈ queuedAt course c n) :
    ∃ user buffered p, (course.state n).TakesUser (course.happens n) c user buffered ∧
      (course.state (n + 1)).proxy? c = some p ∧
      p.table.waiting.filter (·.session = session) =
        [⟨user, session, buffered, (course.state n).now⟩] := by
  obtain ⟨user, buffered, htakes, hreg, rfl, hqueued⟩ := registered_of_queued h
  obtain ⟨p, p', hp, hp', -, houtcome⟩ := hreg.outcome
  refine ⟨user, buffered, p', htakes, hp', ?_⟩
  rcases houtcome with ⟨-, -, hwaiting⟩ | ⟨hnone, -⟩
  · have hothers : (Table.others (course.state n).ids.next p.table.waiting).filter
        (·.session = (course.state n).ids.next) = [] := by
      rw [List.filter_eq_nil_iff]
      intro v hv
      simpa using (Table.session_of_mem_others hv).2
    rw [hwaiting, List.filter_append, hothers]
    simp
  · rw [queuedAt_eq, hnone] at hqueued
    cases hqueued

/-- What is announced on a connection comes after the grant of its request. -/
theorem granted_of_queued (h : .openDataConn session ∈ queuedAt course c n) :
    ∃ m, m < n ∧ ∃ k ∈ queuedAt course c m, Granted k := by
  obtain ⟨user, buffered, -, hreg, -, hqueued⟩ := registered_of_queued h
  obtain ⟨p, p', hp, -, -, houtcome⟩ := hreg.outcome
  rcases granted_before n p hp with hshut | hgranted
  · -- on a connection that is shut nothing is announced
    rcases houtcome with ⟨haccepts, -⟩ | ⟨hnone, -⟩
    · simp [hshut.refuses] at haccepts
    · rw [queuedAt_eq, hnone] at hqueued
      cases hqueued
  · exact hgranted

/-- Within one turn of the circle of ids, each is announced once. -/
theorem announced_once {m : Nat} (hmn : m ≤ n) (hfew : drawn course n < drawn course m + maxId)
    (hm : .openDataConn session ∈ queuedAt course c m)
    (hn : .openDataConn session ∈ queuedAt course d n) : m = n ∧ c = d := by
  obtain ⟨user, buffered, htakes, hreg, hid, -⟩ := registered_of_queued hm
  obtain ⟨user', buffered', htakes', -, hid', -⟩ := registered_of_queued hn
  rcases Nat.eq_or_lt_of_le hmn with rfl | hlt
  · -- an event is at the proxy of one connection
    obtain ⟨p, te, -, he, -⟩ := htakes
    obtain ⟨p', te', -, he', -⟩ := htakes'
    cases he.symm.trans he'
    exact ⟨rfl, rfl⟩
  · have hdrawn := drawn_of_registered hreg
    have hle : drawn course (m + 1) ≤ drawn course n := drawn_le hlt
    rw [ids_eq m] at hid
    rw [ids_eq n] at hid'
    exact absurd (hid.symm.trans hid') (IdSource.next_after_ne (IdSource.valid_startingAt first)
      (by omega) hfew)

/-- A user whose announcement is not queued is dropped, and is not in the table. -/
theorem dropped_of_refused {user : Party} {buffered : Bytes}
    (htakes : (course.state n).TakesUser (course.happens n) c user buffered)
    (hnone : queuedAt course c n = []) :
    .table c (.drop user.key) ∈ course.effectsAt n ∧
      ∃ p p', (course.state n).proxy? c = some p ∧ (course.state (n + 1)).proxy? c = some p' ∧
        ¬p'.table.Judges user.key ∧ (∀ v ∈ p'.table.waiting, v ∈ p.table.waiting) ∧
        p'.table.paired = p.table.paired := by
  obtain ⟨p, p', hp, hp', hgone, houtcome⟩ := (htakes.registered a).outcome
  rcases houtcome with ⟨-, hqueued, -⟩ | ⟨-, hdrop, hwaiting, hpaired⟩
  · rw [queuedAt_eq, hqueued] at hnone
    cases hnone
  · refine ⟨hdrop, p, p', hp, hp', hgone, fun v hv => ?_, hpaired⟩
    rw [hwaiting] at hv
    exact (Table.session_of_mem_others hv).1

end Moments

/-- At every moment of every course: a session is announced on a connection after its
request was granted, alone, and for the one connection that the proxy has just taken for a
user; no session is announced twice, on whatever connections, before the circle of ids
closes; whoever waits was announced when it was registered; and a user whose announcement
is refused is dropped and is not in the table. -/
theorem announces_in_order (course : Course (step a) (start o (.startingAt first))) :
    (∀ n c session, .openDataConn session ∈ queuedAt course c n →
      (∃ m, m < n ∧ ∃ k ∈ queuedAt course c m, Granted k) ∧
      queuedAt course c n = [.openDataConn session] ∧
      ∃ user buffered p, (course.state n).TakesUser (course.happens n) c user buffered ∧
        (course.state (n + 1)).proxy? c = some p ∧
        p.table.waiting.filter (·.session = session) =
          [⟨user, session, buffered, (course.state n).now⟩]) ∧
    (∀ m n c d session, m ≤ n → drawn course n < drawn course m + maxId →
      .openDataConn session ∈ queuedAt course c m → .openDataConn session ∈ queuedAt course d n →
      m = n ∧ c = d) ∧
    (∀ n c p, (course.state n).proxy? c = some p → ∀ v ∈ p.table.waiting,
      ∃ m user buffered, m < n ∧ (course.state m).TakesUser (course.happens m) c user buffered ∧
        user.key = v.party.key ∧ queuedAt course c m = [.openDataConn v.session]) ∧
    (∀ n c user buffered, (course.state n).TakesUser (course.happens n) c user buffered →
      queuedAt course c n = [] → .table c (.drop user.key) ∈ course.effectsAt n ∧
        ∃ p p', (course.state n).proxy? c = some p ∧ (course.state (n + 1)).proxy? c = some p' ∧
          ¬p'.table.Judges user.key ∧ (∀ v ∈ p'.table.waiting, v ∈ p.table.waiting) ∧
          p'.table.paired = p.table.paired) := by
  refine ⟨?_, ?_, ?_, ?_⟩
  · intro n c session h
    obtain ⟨-, -, -, -, -, hqueued⟩ := registered_of_queued h
    exact ⟨granted_of_queued h, hqueued, user_of_queued h⟩
  · intro m n c d session hmn hfew hm hn
    exact announced_once hmn hfew hm hn
  · intro n c p hp v hv
    exact announced_before n p hp v hv
  · intro n c user buffered htakes hnone
    exact dropped_of_refused htakes hnone

/-- A connection is granted the name web, a user comes in at its port and says nothing, and
its time is up. -/
def silentUser : Course (step webCipher) (start webOptions (.startingAt 1)) :=
  .of (comesAndAsks 1 ++ [.handle ⟨1⟩ bindsAll, .table ⟨1⟩ (.accept 5), .advance 500,
    .table ⟨1⟩ (.timeUp 5)]) (.advance 0)

theorem announces_in_order_silentUser :
    .openDataConn 1 ∈ queuedAt silentUser ⟨1⟩ 8 ∧
      ∃ m, m < 8 ∧ ∃ k ∈ queuedAt silentUser ⟨1⟩ m, Granted k := by
  have hqueued : .openDataConn 1 ∈ queuedAt silentUser ⟨1⟩ 8 := by decide +kernel
  exact ⟨hqueued, ((announces_in_order silentUser).1 8 ⟨1⟩ 1 hqueued).1⟩

end ReverseTunnel.Server.Run
