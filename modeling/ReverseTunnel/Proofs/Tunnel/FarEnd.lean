import ReverseTunnel.Proofs.Proxy.Conveyance
import ReverseTunnel.Proofs.Server.Replies
import ReverseTunnel.Proofs.Tunnel.Lines

/-!
The server's end of the lines.

Whatever happens to a server and its client is to the tables of the server something that
happens to an exchange (`Mirrors`), so that every run of the two is followed by a run of an
exchange in which the same has come in and gone out (`exists_follows`). In it a line is never
taken for a user if the handshake comes in time (`not_waits_of_line`): what has come out of
it is the beginning of what its attempt has put on it, which begins with a handshake.
-/

namespace ReverseTunnel.Proxy

open Session

variable {buffer seen buffered put : Bytes} {s s' : Socket} {tr : Trail} {session : UInt32}

theorem not_fits_of_look (h : look buffer s = (some (.user buffered), seen, s')) : ¬Handshake.Fits seen := by
  unfold look at h
  dsimp only at h
  split at h
  · rename_i j hj
    simp only [Prod.mk.injEq, Option.some.injEq] at h
    obtain ⟨rfl, hseen, -⟩ := h
    rw [← hseen, ← Handshake.inspect_eq_foreign_iff]
    unfold judgement? at hj
    split at hj
    · cases hj
    · assumption
    · cases hj
  · simp only [Prod.mk.injEq] at h
    obtain ⟨hclosed, -, -⟩ := h
    split at hclosed <;> cases hclosed

theorem isSome_look_of_ended (hended : s.remoteEnded = true)
    (hshort : (buffer ++ s.unread).length ≤ judgedLimit) : (look buffer s).1.isSome = true := by
  have hread : s.unread.drop (judgedLimit - buffer.length) = [] := by
    rw [List.drop_eq_nil_iff]
    rw [List.length_append] at hshort
    omega
  unfold look
  dsimp only
  split
  · rfl
  · rw [hread, hended]
    rfl

theorem fits_of_beginning (hput : Handshake.encode session <+: put) (h : seen <+: put) :
    Handshake.Fits seen :=
  List.prefix_or_prefix_of_prefix h ((List.prefix_append _ _).trans hput)

/-- A look at a connection that sends what begins with a handshake does not take it for a user. -/
theorem look_ne_user (hheld : Held tr buffer s) (hput : Handshake.encode session <+: put)
    (htr : tr.sent <+: put) : look buffer s ≠ (some (.user buffered), seen, s') := by
  intro h
  have hseen : seen <+: put :=
    (List.prefix_append _ _).trans ((hheld.readOn (readOn_look h)).within.trans htr)
  exact not_fits_of_look h (fits_of_beginning hput hseen)

/-- A connection that sends what begins with a handshake is judged by a look as soon as all of
the handshake has arrived, or it has ended. -/
theorem isSome_look (hheld : Held tr buffer s) (hsound : s.broken = false)
    (hput : Handshake.encode session <+: put) (htr : tr.sent <+: put)
    (harrived : Handshake.length ≤ tr.sent.length ∨ tr.ended = true) : (look buffer s).1.isSome = true := by
  have hall := hheld.all hsound
  rcases Nat.lt_or_ge tr.sent.length Handshake.length with hshort | hlong
  · have hended : tr.ended = true := harrived.resolve_left (Nat.not_le.mpr hshort)
    apply isSome_look_of_ended (hheld.ended.trans hended)
    rw [hall]
    exact Nat.le_trans (Nat.le_of_lt hshort) (by decide)
  · have hhandshake : Handshake.encode session <+: buffer ++ s.unread := by
      rw [hall]
      exact List.prefix_of_prefix_length_le hput htr (by rw [Handshake.length_encode]; exact hlong)
    obtain ⟨rest, seen, s', hlook⟩ := look_of_handshake hhandshake
    rw [hlook]
    rfl

end ReverseTunnel.Proxy

namespace ReverseTunnel.Tunnel

open Client (Attempt Loop)
open Proxy (Table Exchange Occurrence Task)
open Session (ConnId Handshake.length)
open Traffic (sending arriving)

/-! ## Steps of an exchange -/

/-- The tables of the server. -/
def exchange (x : Tunnel) : Exchange ConnId := x.server.exchange x.nextInbound

/-- What the far end of a connection has done after something has happened. -/
def heard (x : Tunnel) (k : Nat) : Occurrence ConnId → Trail
  | .receive key b => if key = k ∧ k < x.nextInbound then (x.inbound k).came.receive b else (x.inbound k).came
  | _ => (x.inbound k).came

/-- What happens is to the tables of the server what happens to an exchange. -/
structure Mirrors (x z : Tunnel) (o : Occurrence ConnId) : Prop where
  state : z.exchange = (x.exchange.step o).1
  went : ∀ k, (z.inbound k).went = (x.inbound k).went ++ Proxy.outgoing (x.exchange.step o).2 k
  came : ∀ k, (z.inbound k).came = x.heard k o
  /-- The time of a connection is up only after it was looked at. -/
  looked : ∀ c accepts key, o = .act c accepts (.timeUp key) → shows (x.server.table c) key = false

variable {a : Seal.Aead} {x y z : Tunnel} {o : Occurrence ConnId} {p : Attempt} {l : Line} {key : Nat}
  {b : Arrival}

theorem mirrors_nothing (hserver : z.server = x.server) (hnext : z.nextInbound = x.nextInbound)
    (hinbound : z.inbound = x.inbound) : Mirrors x z (.advance 0) where
  state := by
    rw [exchange, hserver, hnext]
    rfl
  went k := by
    rw [hinbound]
    exact (List.append_nil _).symm
  came k := by
    rw [hinbound]
    rfl
  looked _ _ _ ho := by cases ho

theorem Mirrors.congr (h : Mirrors x y o) (hserver : z.server = y.server)
    (hnext : z.nextInbound = y.nextInbound) (hinbound : z.inbound = y.inbound) : Mirrors x z o := by
  have hexchange : z.exchange = y.exchange := by rw [exchange, hserver, hnext, exchange]
  exact ⟨hexchange.trans h.state, hinbound ▸ h.went, hinbound ▸ h.came, h.looked⟩

theorem mirrors_server {e : Server.Event} (he : x.admits e = true) :
    ∃ o, Mirrors x (x.onServer (x.server.step a e)).1 o := by
  have hinner : e.isInner = true := by
    unfold admits at he
    split at he
    · rfl
    · exact he
  rcases Server.Run.plays_inner a x.server x.nextInbound hinner with
    ⟨c, accepts, task, hplays, htimeUp⟩ | ⟨ms, hplays⟩
  · refine ⟨_, hplays.state, fun k => congrArg _ (hplays.brings k), fun k => rfl, ?_⟩
    intro d accepts' key ho
    obtain ⟨rfl, -, rfl⟩ := Occurrence.act.inj ho
    rw [htimeUp key rfl] at he
    simpa [admits] using he
  · exact ⟨_, hplays.state, fun k => congrArg _ (hplays.brings k), fun k => rfl, fun _ _ _ ho => by cases ho⟩

theorem mirrors_comeIn {owner : ConnId} (hlistens : x.listens owner = true) :
    Mirrors x (x.comeIn a owner).1 (.comeIn owner) := by
  obtain ⟨p, hp, hlistening⟩ := (Option.any_eq_true _ _).mp hlistens
  have hplays : Server.Run.Plays x.server x.nextInbound _ (.comeIn owner) :=
    Server.Run.plays_accept a hp hlistening
  exact ⟨hplays.state, fun k => congrArg _ (hplays.brings k), fun k => rfl, fun _ _ _ ho => by cases ho⟩

theorem mirrors_arrive (hwf : x.exchange.WellFormed) (hkey : key < x.nextInbound) (b : Arrival) :
    Mirrors x (x.arrive a key b).1 (.receive key b) := by
  have hplays := Server.Run.plays_deliver a hwf key b
  refine ⟨hplays.state, fun k => ?_, fun k => ?_, fun _ _ _ ho => by cases ho⟩
  · show (arriving x.inbound key b k).went ++ _ = _
    rw [Traffic.went_arriving]
    exact congrArg _ (hplays.brings k)
  · show (arriving x.inbound key b k).came = _
    rw [Traffic.came_arriving, heard]
    by_cases hk : k = key
    · subst hk
      rw [if_pos rfl, if_pos ⟨rfl, hkey⟩]
    · rw [if_neg hk, if_neg fun h => hk h.1.symm]

/-- Every step is one of an exchange. -/
theorem mirrors_step (h : x.Conducts) (hwf : x.exchange.WellFormed) (e : Event) :
    ∃ o, Mirrors x (x.step a e).1 o := by
  have hnothing : Mirrors x x (.advance 0) := mirrors_nothing rfl rfl rfl
  cases e with
  | server e =>
    rw [step]
    split
    · rename_i he
      exact mirrors_server he
    · exact ⟨_, hnothing⟩
  | client now e =>
    rw [step]
    split
    · exact ⟨_, mirrors_nothing rfl rfl rfl⟩
    · exact ⟨_, hnothing⟩
  | visit owner =>
    rw [step]
    split
    · rename_i hlistens
      exact ⟨_, (mirrors_comeIn hlistens).congr rfl rfl rfl⟩
    · exact ⟨_, hnothing⟩
  | visitor key b =>
    rw [step]
    split
    · rename_i hkey
      exact ⟨_, mirrors_arrive hwf (h.visitors key hkey) b⟩
    · exact ⟨_, hnothing⟩
  | call now p =>
    rw [step]
    split
    · exact ⟨_, mirrors_nothing rfl rfl rfl⟩
    · exact ⟨_, hnothing⟩
  | letIn p owner =>
    rw [step]
    split
    · exact ⟨_, hnothing⟩
    · split
      · rename_i hlets
        exact ⟨_, (mirrors_comeIn hlets.1).congr rfl rfl rfl⟩
      · exact ⟨_, hnothing⟩
  | up p y =>
    rw [step]
    split
    · exact ⟨_, hnothing⟩
    · rename_i l hl
      split
      · exact ⟨_, hnothing⟩
      · rename_i far hfar
        exact ⟨_, mirrors_arrive hwf (h.far p l far hl hfar).1 _⟩
  | down now p y =>
    rw [step]
    split
    · exact ⟨_, hnothing⟩
    · exact ⟨_, mirrors_nothing rfl rfl rfl⟩
  | answer now p =>
    rw [step]
    split
    · exact ⟨_, hnothing⟩
    · split
      · exact ⟨_, mirrors_nothing rfl rfl rfl⟩
      · exact ⟨_, hnothing⟩
  | backend now p b =>
    rw [step]
    split
    · exact ⟨_, hnothing⟩
    · exact ⟨_, mirrors_nothing rfl rfl rfl⟩

/-! ## Runs of an exchange -/

/-- The judging delays of the proxies of a server. -/
abbrev delays (so : Server.Options) : ConnId → Nat := fun _ => so.normalize.judgeDelay

namespace Run

variable {so : Server.Options} {first : UInt32} {co : Client.Options} {r : Run a so first co}
  {q : Exchange.Run (delays so) first} {c : ConnId} {k n far : Nat}

/-- A run of an exchange follows the server: its tables are those of the server, and the same
has come in and gone out. -/
structure Follows (q : Exchange.Run (delays so) first) (r : Run a so first co) : Prop where
  state : ∀ n, q.state n = (r.state n).exchange
  came : ∀ k n, q.trail k n = ((r.state n).inbound k).came
  went : ∀ k n, q.received k n = ((r.state n).inbound k).went
  looked : ∀ n c accepts key, q.happens n = .act c accepts (.timeUp key) →
    shows ((r.state n).server.table c) key = false

theorem wellFormed (r : Run a so first co) (n : Nat) : (r.state n).exchange.WellFormed := by
  induction n with
  | zero => exact Exchange.wellFormed_start (delays so) first
  | succ n ih =>
    obtain ⟨o, ho⟩ := mirrors_step (a := a) (r.conducts n) ih (r.happens n)
    show (((r.state n).step a (r.happens n)).1).exchange.WellFormed
    rw [ho.state]
    exact Exchange.wellFormed_step ih o

theorem exists_follows (r : Run a so first co) : ∃ q : Exchange.Run (delays so) first, Follows q r := by
  have hmirrors : ∀ n, ∃ o, Mirrors (r.state n) (r.state (n + 1)) o := fun n =>
    mirrors_step (r.conducts n) (r.wellFormed n) (r.happens n)
  choose happens h using hmirrors
  let q : Exchange.Run (delays so) first := ⟨happens⟩
  have hstate : ∀ n, q.state n = (r.state n).exchange := by
    intro n
    induction n with
    | zero => rfl
    | succ n ih =>
      rw [(h n).state, ← ih]
      rfl
  refine ⟨q, hstate, fun k n => ?_, fun k n => ?_, fun n c accepts key ho => (h n).looked c accepts key ho⟩
  · induction n with
    | zero => rfl
    | succ n ih =>
      rw [(h n).came]
      cases ho : happens n with
      | receive key b =>
        have ho' : q.happens n = .receive key b := ho
        have hnext : (q.state n).nextKey = (r.state n).nextInbound := congrArg Exchange.nextKey (hstate n)
        simp only [Exchange.Run.trail, ho', hnext, ih, heard]
      | comeIn | act | advance =>
        rw [Exchange.Run.trail_succ_of_quiet (r := q) (fun key b hq => by cases ho.symm.trans hq), ih]
        rfl
  · induction n with
    | zero => rfl
    | succ n ih =>
      rw [Exchange.Run.received_succ, ih, (h n).went, ← hstate]
      rfl

/-! ## Lines are not taken for users -/

/-- The handshakes that the client writes reach the proxies in time: of a line that is judged
when its time is up the handshake has come out, or nothing more comes out of it. -/
def InTime (r : Run a so first co) : Prop :=
  ∀ n p l far c, (r.state n).lines p = some l → l.far = some far →
    ∀ j ∈ ((r.state n).server.table c).judging, j.party.key = far →
      j.deadline ≤ (r.state n).server.now →
      Handshake.length ≤ ((r.state n).inbound far).came.sent.length ∨
        ((r.state n).inbound far).came.ended = true

theorem table_eq (hq : Follows q r) (c : ConnId) (n : Nat) : q.table c n = (r.state n).server.table c := by
  rw [Exchange.Run.table, hq.state]
  rfl

theorem held_of_judging (hq : Follows q r) {j : Proxy.Judged}
    (hj : j ∈ ((r.state n).server.table c).judging) :
    Held ((r.state n).inbound j.party.key).came j.buffer j.party.socket := by
  rw [← table_eq hq] at hj
  have hheld := (Exchange.Run.faithful (r := q) c n).judging j hj
  rwa [hq.came] at hheld

theorem not_showsUser (hintime : r.InTime) (hq : Follows q r) (hl : (r.state n).lines p = some l)
    (hfar : l.far = some far) {accepts : Bool} {task : Task}
    (hwork : q.happens n = .act c accepts task) (htask : task = .look far ∨ task = .timeUp far)
    {user : Party} {buffered : Bytes} :
    ¬((r.state n).server.table c).ShowsUser (r.state n).server.now task.event user buffered := by
  obtain ⟨d, -, hkeeps⟩ := (r.kept n).serves p l hl
  have hput := hkeeps.carries.begins
  have hup := (r.conducts n).up p l far hl hfar
  have hjudged : ∀ {j : Proxy.Judged},
      ((r.state n).server.table c).judging.find? (·.party.key = far) = some j →
        j ∈ ((r.state n).server.table c).judging ∧ j.party.key = far ∧
          Held ((r.state n).inbound far).came j.buffer j.party.socket := by
    intro j hj
    have hmem := List.mem_of_find?_eq_some hj
    have hkey : j.party.key = far := by simpa using List.find?_some hj
    exact ⟨hmem, hkey, hkey ▸ held_of_judging hq hmem⟩
  intro hshows
  rcases htask with rfl | rfl
  · cases hshows with
    | shown hj _ hlook =>
      obtain ⟨-, -, hheld⟩ := hjudged hj
      exact Proxy.look_ne_user hheld hput hup hlook
  · cases hshows with
    | late hj hdue =>
      obtain ⟨hmem, hkey, hheld⟩ := hjudged hj
      -- the last look before has shown nothing
      have hlooked := hq.looked n c accepts far hwork
      rw [shows, hj] at hlooked
      obtain ⟨hsound, hnone⟩ := Bool.or_eq_false_iff.mp hlooked
      have hsome := Proxy.isSome_look hheld hsound hput hup
        (hintime n p l far c hl hfar _ hmem hkey hdue)
      rw [hsome] at hnone
      cases hnone

/-- A line is never taken for a user if the handshakes come in time. -/
theorem not_waits_of_line (hintime : r.InTime) (hl : (r.state k).lines p = some l)
    (hfar : l.far = some far) (n : Nat) (c : ConnId) (session : UInt32) :
    ¬((r.state n).server.table c).Waits far session := by
  obtain ⟨q, hq⟩ := r.exists_follows
  rw [← table_eq hq]
  induction n with
  | zero =>
    rintro ⟨v, hv, -⟩
    cases hv
  | succ n ih =>
    intro hw
    rcases Exchange.waits_of_step (q.wellFormed n) hw with hw | hreg
    · exact ih hw
    -- it is judged, so it has come in
    have hin : far < (r.state n).nextInbound := by
      have hlt := (q.wellFormed n).known c _ hreg.judged.mem_keys
      rwa [hq.state] at hlt
    rcases later_at (e := .far) hl hfar n with ⟨l', hl', hfar'⟩ | ⟨-, hle⟩
    · obtain ⟨accepts, task, hwork, htask⟩ : ∃ accepts task, q.happens n = .act c accepts task ∧
          (task = .look far ∨ task = .timeUp far) := by
        obtain ⟨accepts, hlook | htimeUp⟩ := hreg.work
        · exact ⟨accepts, _, hlook, .inl rfl⟩
        · exact ⟨accepts, _, htimeUp, .inr rfl⟩
      have hannounced := hreg.announced
      rw [hwork] at hannounced
      rcases (q.table c n).step_cases ((q.state n).around accepts) task.event with
        ⟨user, buffered, hshows, -⟩ | hsilent
      · rw [table_eq hq, Exchange.around, hq.state] at hshows
        exact not_showsUser hintime hq hl' hfar' hwork htask hshows
      · exact hsilent.quiet session hannounced
    · exact absurd hin (Nat.not_lt.mpr hle)

end Run

end ReverseTunnel.Tunnel
