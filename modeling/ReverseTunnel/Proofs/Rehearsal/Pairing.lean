import ReverseTunnel.Proofs.Control.Running
import ReverseTunnel.Proofs.Proxy.Accounts
import ReverseTunnel.Proofs.Proxy.Issuing
import ReverseTunnel.Proofs.Rehearsal.Script
import ReverseTunnel.Proofs.Rehearsal.Turn
import ReverseTunnel.Rehearsal.Pairing

/-!
What the rehearsals of a session table come to.

What is proved: whatever script is played, its reports are those of one course of an exchange
with a single table, at moments that follow one another (`run?_shown`). As many users wait as
at that moment, as many were evicted as in an eviction of the course, and each metric comes to
what the course counts. At each of these moments the owner's link is one that its service can
come to if the announcements of the course are emitted on it, in order, and nothing else is
(`At.owner`).

What is set aside: the two metrics that count the faults of links, for the owner's link counts
to the same metrics as the table. Nothing is said of what reaches the far ends of connections,
which are the script's.
-/

namespace ReverseTunnel.Rehearsal.Pairing.Scene

open Control Proxy Session
open Wire (Message)

/-! ## The owner's link -/

/-- The link of an owner to whom sessions were announced: a course of its service comes to it in
which these are all that was emitted, in order. -/
structure Owned (sessions : List UInt32) (l : Link) : Prop where
  sound : l.Sound
  serves : ∃ handled heard sent, Service.Serves l handled (sessions.map .openDataConn) heard sent

variable {sessions : List UInt32} {l l' : Link} {msg : Message}

theorem owned_start : Owned [] {} := ⟨Link.sound_start, [], [], [], Service.serves_start []⟩

theorem Owned.step (h : Owned sessions l) (e : LinkEvent) : Owned sessions (l.step e).1 := by
  obtain ⟨handled, heard, sent, hserves⟩ := h.serves
  exact ⟨h.sound.move (Link.move l e), handled, _, _, hserves.onLink h.sound e⟩

theorem Owned.emitted (h : Owned sessions l) (session : UInt32) :
    Owned (sessions ++ [session]) (l.emitted (.openDataConn session)) := by
  obtain ⟨handled, heard, sent, hserves⟩ := h.serves
  refine ⟨h.sound.aside (Link.aside_emitted l _), handled, heard, sent, ?_⟩
  rw [List.map_append]
  exact hserves.emitAll [.openDataConn session]

theorem Owned.takes (h : Owned sessions l) (ht : l.take? = some (msg, l')) : Owned sessions l' := by
  obtain ⟨handled, heard, sent, hserves⟩ := h.serves
  have hopen : l'.stage ≠ .finished := by
    rw [(Link.take?_eq_some ht).2]
    simp [Link.stage_of_take? h.sound ht]
  exact ⟨Link.sound_take? h.sound ht, _, heard, sent, (hserves.hands h.sound ht).serves hopen⟩

/-! ## What is done to the world around -/

variable {s : Scene} {k : Metric}

/-- A scene with the same table, the same ids and the same clock. -/
structure Beside (s s' : Scene) : Prop where
  table : s'.table = s.table
  ids : s'.ids = s.ids
  now : s'.now = s.now
  nextKey : s'.nextKey = s.nextKey

theorem Beside.trans {s s' s'' : Scene} (h : s.Beside s') (h' : s'.Beside s'') : s.Beside s'' :=
  ⟨h'.table.trans h.table, h'.ids.trans h.ids, h'.now.trans h.now, h'.nextKey.trans h.nextKey⟩

theorem beside_linkEffects (fx : List LinkEffect) : ∀ s : Scene,
    s.Beside (fx.foldl linkEffect s) ∧ (fx.foldl linkEffect s).owner = s.owner := by
  induction fx with
  | nil => exact fun _ => ⟨⟨rfl, rfl, rfl, rfl⟩, rfl⟩
  | cons e fx ih =>
    intro s
    obtain ⟨⟨htable, hids, hnow, hnext⟩, howner⟩ := ih (linkEffect s e)
    cases e <;> exact ⟨⟨htable, hids, hnow, hnext⟩, howner⟩

theorem total_foldl_linkEffect {fx : List LinkEffect} (h : ∀ n, .count n ∈ fx → n.metric ≠ k) :
    ∀ s : Scene, (fx.foldl linkEffect s).metrics.total k = s.metrics.total k := by
  induction fx with
  | nil => exact fun _ => rfl
  | cons e fx ih =>
    intro s
    rw [List.foldl_cons, ih fun n hn => h n (List.mem_cons_of_mem _ hn)]
    cases e with
    | sent bs => rfl
    | sentEnd => rfl
    | count n =>
      have hother := h n List.mem_cons_self
      exact (Metrics.total_add _ _ _).trans (by rw [if_neg hother.symm, Int.add_zero])

/-- What is announced is emitted on the owner's link, and nothing else is. -/
theorem beside_tableEffect (h : Owned sessions s.owner) (e : TableEffect) :
    s.Beside (tableEffect s e) ∧ Owned (sessions ++ announced [e]) (tableEffect s e).owner := by
  have hquiet : Owned (sessions ++ []) s.owner := (List.append_nil sessions).symm ▸ h
  cases e with
  | announce session =>
    obtain ⟨hsame, howner⟩ := beside_linkEffects (s.owner.emit (.openDataConn session)).2.2
      { s with owner := s.owner.emitted (.openDataConn session) }
    exact ⟨⟨hsame.table, hsame.ids, hsame.now, hsame.nextKey⟩, howner ▸ h.emitted session⟩
  | relay e => cases e <;> exact ⟨⟨rfl, rfl, rfl, rfl⟩, hquiet⟩
  | drop key => exact ⟨⟨rfl, rfl, rfl, rfl⟩, hquiet⟩
  | count n => exact ⟨⟨rfl, rfl, rfl, rfl⟩, hquiet⟩

theorem beside_tableEffects (fx : List TableEffect) : ∀ {s : Scene} {sessions : List UInt32},
    Owned sessions s.owner → s.Beside (fx.foldl tableEffect s) ∧
      Owned (sessions ++ announced fx) (fx.foldl tableEffect s).owner := by
  induction fx with
  | nil => exact fun h => ⟨⟨rfl, rfl, rfl, rfl⟩, (List.append_nil _).symm ▸ h⟩
  | cons e fx ih =>
    intro s sessions h
    obtain ⟨hstep, howned⟩ := beside_tableEffect h e
    obtain ⟨hrest, hall⟩ := ih howned
    refine ⟨hstep.trans hrest, ?_⟩
    rw [List.append_assoc, announced, announced, ← List.filterMap_append] at hall
    exact hall

theorem total_foldl_tableEffect (hk : k ≠ .stalledPeers) (fx : List TableEffect) : ∀ s : Scene,
    (fx.foldl tableEffect s).metrics.total k = s.metrics.total k + amount k fx := by
  induction fx with
  | nil => exact fun s => (Int.add_zero _).symm
  | cons e fx ih =>
    intro s
    rw [List.foldl_cons, ih]
    cases e with
    | relay e => cases e <;> rfl
    | drop key => rfl
    | announce session =>
      have hsame : (tableEffect s (.announce session)).metrics.total k = s.metrics.total k :=
        total_foldl_linkEffect (fun n hn => Link.metric_of_emit hn ▸ hk.symm) _
      rw [hsame]
      rfl
    | count n =>
      have hcounted : (tableEffect s (.count n)).metrics.total k =
          s.metrics.total k + (if k = n.metric then n.amount else 0) := Metrics.total_add _ _ _
      rw [hcounted, Int.add_assoc]
      rfl

/-! ## The steps of a scene -/

variable {judgeDelay : Nat} {first : UInt32}
  {before course : Exchange.Run (fun _ : Unit => judgeDelay) first} {m n now : Nat}

/-- A scene shows a moment of an exchange with a single table. Beside what the table counts, only
the faults of its owner's link are counted. -/
structure At (course : Exchange.Run (fun _ : Unit => judgeDelay) first) (n : Nat) (s : Scene) :
    Prop where
  table : (course.state n).tables () = s.table
  ids : (course.state n).ids = s.ids
  now : (course.state n).now = s.now
  nextKey : (course.state n).nextKey = s.nextKey
  metrics : ∀ k, k ≠ .framingViolations → k ≠ .stalledPeers →
    s.metrics.total k = amount k (course.effects n)
  owner : Owned (announced (course.effects n)) s.owner

/-- A rehearsed table is at a moment of a course that goes on from a moment of another. -/
def Follows (before : Exchange.Run (fun _ : Unit => judgeDelay) first) (m now : Nat) (s : Scene) :
    Prop :=
  ∃ course n, before.RunsOn m course n ∧ s.At course n ∧ s.now = now

theorem At.turnedAt (h : s.At course n) (o : Occurrence Unit) {s' : Scene}
    (htable : ((course.state n).step o).1.tables () = s'.table)
    (hids : ((course.state n).step o).1.ids = s'.ids)
    (hnow : ((course.state n).step o).1.now = s'.now)
    (hnext : ((course.state n).step o).1.nextKey = s'.nextKey)
    (hmetrics : ∀ k, k ≠ .framingViolations → k ≠ .stalledPeers →
      s'.metrics.total k = s.metrics.total k + amount k ((course.state n).step o).2)
    (howner : Owned (announced (course.effects n) ++ announced ((course.state n).step o).2) s'.owner) :
    s'.At (course.turnedAt n o) (n + 1) := by
  obtain ⟨hstate, heffects⟩ := course.turnedAt_succ n o
  refine ⟨?_, ?_, ?_, ?_, fun k hf hs => ?_, ?_⟩
  · rw [hstate, htable]
  · rw [hstate, hids]
  · rw [hstate, hnow]
  · rw [hstate, hnext]
  · rw [hmetrics k hf hs, h.metrics k hf hs, heffects, amount_append]
  · rw [heffects, announced, List.filterMap_append]
    exact howner

theorem At.act (h : s.At course n) (task : Task) : (s.tableStep task.event).At
    (course.turnedAt n (.act () s.owner.accepts task)) (n + 1) := by
  have hturn : (course.state n).turn () s.owner.accepts task = s.table.step s.around task.event := by
    rw [Exchange.turn, Exchange.around, h.table, h.ids, h.now]
    rfl
  let t := s.table.step s.around task.event
  have hstep : (course.state n).step (.act () s.owner.accepts task) =
      ({ (course.state n).change () t.table with ids := t.ids }, t.effects) := by
    rw [Exchange.step, hturn]
  obtain ⟨hbeside, howned⟩ := beside_tableEffects t.effects
    (s := { s with table := t.table, ids := t.ids }) h.owner
  refine h.turnedAt (.act () s.owner.accepts task) ?_ ?_ ?_ ?_ (fun k _ hs => ?_) ?_
  · rw [hstep]
    exact (Exchange.tables_change (course.state n) () () _).trans hbeside.table.symm
  · rw [hstep]
    exact hbeside.ids.symm
  · rw [hstep]
    exact h.now.trans hbeside.now.symm
  · rw [hstep]
    exact h.nextKey.trans hbeside.nextKey.symm
  · rw [hstep]
    exact total_foldl_tableEffect hs _ _
  · rw [hstep]
    exact howned

theorem Follows.act (h : s.Follows before m now) (task : Task) :
    (s.tableStep task.event).Follows before m now := by
  obtain ⟨course, n, hon, h, rfl⟩ := h
  have hacted := h.act task
  have hclock := congrArg Exchange.now (course.turnedAt_succ n (.act () s.owner.accepts task)).1
  exact ⟨_, _, hon.turnedAt _, hacted, hacted.now.symm.trans (hclock.trans h.now)⟩

theorem At.quietly (h : s.At course n) (o : Occurrence Unit) {s' : Scene}
    (hquiet : ((course.state n).step o).2 = [])
    (htable : ((course.state n).step o).1.tables () = s'.table)
    (hids : ((course.state n).step o).1.ids = s'.ids)
    (hnow : ((course.state n).step o).1.now = s'.now)
    (hnext : ((course.state n).step o).1.nextKey = s'.nextKey)
    (hmetrics : s'.metrics = s.metrics) (howner : s'.owner = s.owner) :
    s'.At (course.turnedAt n o) (n + 1) := by
  refine h.turnedAt o htable hids hnow hnext (fun k _ _ => ?_) ?_
  · rw [hmetrics, hquiet]
    exact (Int.add_zero _).symm
  · rw [howner, hquiet]
    exact (List.append_nil (announced (course.effects n))).symm ▸ h.owner

theorem Follows.comeIn (h : s.Follows before m now) :
    (({ s with nextKey := s.nextKey + 1 } : Scene).tableStep (.accept s.nextKey)).Follows
      before m now := by
  obtain ⟨course, n, hon, h, rfl⟩ := h
  refine ⟨_, _, hon.turnedAt _, h.quietly (.comeIn ()) rfl ?_ h.ids h.now ?_ rfl rfl, rfl⟩
  · rw [Exchange.step, h.now, h.nextKey, h.table]
    exact Exchange.tables_change (course.state n) () () _
  · rw [Exchange.step, h.nextKey]
    rfl

theorem Follows.receive (h : s.Follows before m now) (key : Nat) (a : Arrival) :
    (s.tableStep (.receive key a)).Follows before m now := by
  obtain ⟨course, n, hon, h, rfl⟩ := h
  have htable := congrArg (Table.receive · key a) h.table
  exact ⟨_, _, hon.turnedAt _,
    h.quietly (.receive key a) rfl htable h.ids h.now h.nextKey rfl rfl, rfl⟩

theorem Follows.later (h : s.Follows before m now) {later : Nat} (hle : now ≤ later) :
    ({ s with now := later } : Scene).Follows before m later := by
  obtain ⟨course, n, hon, h, rfl⟩ := h
  have hnow : ((course.state n).step (.advance (later - s.now))).1.now = later := by
    rw [Exchange.step, h.now]
    exact Nat.add_sub_of_le hle
  exact ⟨_, _, hon.turnedAt _,
    h.quietly (.advance (later - s.now)) rfl h.table h.ids hnow h.nextKey rfl rfl, rfl⟩

theorem Follows.recast (h : s.Follows before m now) (cast : Cast) :
    ({ s with cast } : Scene).Follows before m now := by
  obtain ⟨course, n, hon, h, rfl⟩ := h
  exact ⟨course, n, hon, ⟨h.table, h.ids, h.now, h.nextKey, h.metrics, h.owner⟩, rfl⟩

theorem Follows.ownerStep (h : s.Follows before m now) (e : LinkEvent) :
    (ownerGrip.step e s).Follows before m now := by
  obtain ⟨course, n, hon, h, rfl⟩ := h
  obtain ⟨hbeside, howner⟩ := beside_linkEffects (s.owner.step e).2
    { s with owner := (s.owner.step e).1 }
  refine ⟨course, n, hon, ⟨h.table.trans hbeside.table.symm, h.ids.trans hbeside.ids.symm,
    h.now.trans hbeside.now.symm, h.nextKey.trans hbeside.nextKey.symm, fun k hf hs => ?_, ?_⟩,
    hbeside.now⟩
  · rw [← h.metrics k hf hs]
    exact total_foldl_linkEffect (fun c hc => Link.metric_of_step hc ▸ hf.symm) _
  · exact howner ▸ h.owner.step e

theorem Follows.ownerHandle (h : s.Follows before m now) : (ownerGrip.handle s).Follows before m now := by
  rw [ownerGrip]
  dsimp only
  split
  · obtain ⟨course, n, hon, h, rfl⟩ := h
    exact ⟨course, n, hon, ⟨h.table, h.ids, h.now, h.nextKey, h.metrics, h.owner.takes ‹_›⟩, rfl⟩
  · exact h

theorem Follows.settleOwner (h : s.Follows before m now) : (ownerGrip.settle s).Follows before m now := by
  have hkeeps : ownerGrip.Keeps (Follows before m now) :=
    ⟨fun e _ h => h.ownerStep e, fun _ h => h.ownerHandle⟩
  exact hkeeps.settle h

/-! ## What a script does -/

theorem Follows.writeOpening : ∀ (fuel key : Nat) {s : Scene}, s.Follows before m now →
    (Scene.writeOpening fuel key s).Follows before m now
  | 0, _, _, h => h
  | fuel + 1, key, s, h => by
    rw [Scene.writeOpening]
    split
    · exact h
    · split
      · exact h
      · exact Follows.writeOpening fuel key (h.act (.relay key (.write _)))

theorem Follows.copyFrom (h : s.Follows before m now) (side : Side) (key : Nat) :
    (Scene.copyFrom side key s).Follows before m now := by
  rw [Scene.copyFrom]
  split
  · exact h
  · exact (h.act (.relay key (.copy side _))).act (.relay key (.forwardEnd side))

theorem Follows.settle (h : s.Follows before m now) : s.settle.Follows before m now := by
  have hjudged : ((ownerGrip.settle s).table.judging.map (·.party.key)).foldl settleJudged
      (ownerGrip.settle s) |>.Follows before m now :=
    List.foldlRecOn _ _ h.settleOwner fun _ h key _ => (h.act (.look key)).act (.timeUp key)
  have hpaired (s : Scene) (h : s.Follows before m now) :
      ((s.table.paired.map (·.relay.back.key)).foldl settlePair s).Follows before m now :=
    List.foldlRecOn _ _ h fun _ h key _ =>
      (((h.writeOpening 4 key).copyFrom .front key).copyFrom .back key).act (.relay key .close)
  exact (hpaired _ hjudged).settleOwner

theorem Follows.perform (h : s.Follows before m now) (key : Nat) (a : PeerAct) :
    (s.act key a).Follows before m now := by
  have hcast := h.recast (s.cast.act key a).1
  rw [Scene.act]
  dsimp only
  split
  · exact hcast
  · split
    · split
      · exact hcast.ownerStep _
      · exact hcast.ownerStep _
    · exact hcast.receive key _

theorem Follows.moment (h : s.Follows before m now) : s.now = now := by
  obtain ⟨_, _, _, _, hmoment⟩ := h
  exact hmoment

theorem Follows.advanceTo {target : Nat} : ∀ (fuel : Nat) {s : Scene} {now : Nat},
    s.Follows before m now → now ≤ target → (Scene.advanceTo fuel target s).Follows before m target
  | 0, _, _, h, hle => h.later hle
  | fuel + 1, s, now, h, hle => by
    rw [Scene.advanceTo]
    split
    · rename_i t ht
      obtain ⟨hnow, htarget⟩ := due_of_min? ht
      have hlater : now ≤ t := h.moment ▸ Nat.le_of_lt hnow
      exact Follows.advanceTo fuel (h.later hlater).settle htarget
    · exact h.later hle

/-- How many users wait at the table at a moment. -/
def waitingAt (course : Exchange.Run (fun _ : Unit => judgeDelay) first) (n : Nat) : Nat :=
  ((course.state n).tables ()).waiting.length

/-- A report shows the table as it is at a moment, and whom it evicted in a step before. -/
structure Shows (course : Exchange.Run (fun _ : Unit => judgeDelay) first) (n waiting : Nat)
    (evicted : Option Nat) : Prop where
  waiting : waiting = waitingAt course n
  evicted : ∀ count ∈ evicted, ∃ k accepts ttl, k < n ∧
    course.happens k = .act () accepts (.evict ttl) ∧
      count = waitingAt course k - waitingAt course (k + 1)

theorem Shows.runsOn {course' : Exchange.Run (fun _ : Unit => judgeDelay) first} {n' waiting : Nat}
    {evicted : Option Nat} (h : Shows course n waiting evicted) (hon : course.RunsOn n course' n') :
    Shows course' n waiting evicted := by
  have hsame {k : Nat} (hk : k ≤ n) : waitingAt course' k = waitingAt course k := by
    rw [waitingAt, (Course.same_of_happens hon.happens hk).1, waitingAt]
  refine ⟨h.waiting.trans (hsame (Nat.le_refl n)).symm, fun count hcount => ?_⟩
  obtain ⟨k, accepts, ttl, hk, hhappens, hevicted⟩ := h.evicted count hcount
  refine ⟨k, accepts, ttl, hk, (hon.happens k hk).trans hhappens, ?_⟩
  rw [hsame (Nat.le_of_lt hk), hsame hk]
  exact hevicted

theorem perform?_shows {s' : Scene} {evicted : Option Nat} (h : s.At course n) (op : Op)
    (hop : s.perform? op = some (s', evicted)) : ∃ course' n', course.RunsOn n course' n' ∧
      s'.At course' n' ∧ Shows course' n' s'.table.waiting.length evicted := by
  have hhere : s.Follows course n s.now := ⟨course, n, .refl course n, h, rfl⟩
  have hquiet {s' : Scene} {now : Nat} (h' : s'.Follows course n now) :
      ∃ course' n', course.RunsOn n course' n' ∧ s'.At course' n' ∧
        Shows course' n' s'.table.waiting.length none := by
    obtain ⟨course', n', hon, hat, -⟩ := h'
    exact ⟨course', n', hon, hat, by rw [waitingAt, hat.table], nofun⟩
  cases op with
  | «open» name first gone =>
    rw [perform?, Option.some.injEq, Prod.mk.injEq] at hop
    obtain ⟨rfl, rfl⟩ := hop
    cases gone with
    | true => exact hquiet ((hhere.comeIn.receive _ _).receive _ _).settle
    | false => exact hquiet ((hhere.comeIn.recast _).receive _ _).settle
  | evict ttl =>
    rw [perform?, Option.some.injEq, Prod.mk.injEq] at hop
    obtain ⟨rfl, rfl⟩ := hop
    have hevicted : (s.tableStep (.evict ttl)).At _ _ := h.act (.evict ttl)
    obtain ⟨course', n', hon, hat, -⟩ := Follows.settle ⟨_, _, .refl _ _, hevicted, rfl⟩
    have hsince := ((Course.RunsOn.refl course n).turnedAt _).trans hon
    have hbefore : waitingAt course' n = s.table.waiting.length := by
      rw [waitingAt, hsince.same.1, h.table]
    have hafter : waitingAt course' (n + 1) = (s.tableStep (.evict ttl)).table.waiting.length := by
      rw [waitingAt, hon.same.1, hevicted.table]
    refine ⟨course', n', hsince, hat, by rw [waitingAt, hat.table], fun count hcount => ?_⟩
    cases hcount
    refine ⟨n, s.owner.accepts, ttl, hon.le, ?_, by rw [hbefore, hafter]⟩
    exact (hon.happens n (Nat.lt_succ_self n)).trans (course.happens_turnedAt n _)
  | clear =>
    rw [perform?, Option.some.injEq, Prod.mk.injEq] at hop
    obtain ⟨rfl, rfl⟩ := hop
    exact hquiet (hhere.act .clear).settle
  | ownerClose =>
    rw [perform?, Option.some.injEq, Prod.mk.injEq] at hop
    obtain ⟨rfl, rfl⟩ := hop
    exact hquiet (hhere.ownerStep .close).settle
  | peer name a =>
    obtain ⟨key, -, hacted⟩ := Option.map_eq_some_iff.mp hop
    obtain ⟨rfl, rfl⟩ := Prod.mk.inj hacted
    exact hquiet (hhere.perform key a).settle
  | advance ms =>
    rw [perform?, Option.some.injEq, Prod.mk.injEq] at hop
    obtain ⟨rfl, rfl⟩ := hop
    exact hquiet (hhere.advanceTo _ (Nat.le_add_right s.now ms))

theorem shown_of_run? : ∀ (ops : List Op)
    {course : Exchange.Run (fun _ : Unit => judgeDelay) first} {n : Nat} {s : Scene}
    {reports : List Report} {metrics : Metrics}, s.At course n →
    s.run? ops = some (reports, metrics) → ∃ course' n', course.RunsOn n course' n' ∧
      Shown (fun k r => Shows course' k r.waiting r.evicted) n reports ∧
        ∀ k, k ≠ .framingViolations → k ≠ .stalledPeers →
          metrics.total k = (Exchange.Run.metrics course' n').total k
  | [], course, n, s, _, _, h, hrun => by
    cases hrun
    refine ⟨course, n, .refl course n, .none n, fun k hf hs => ?_⟩
    rw [h.metrics k hf hs, Exchange.Run.metrics, Metrics.total_addAll]
    exact (Int.zero_add _).symm
  | op :: ops, course, n, s, _, _, h, hrun => by
    rw [run?] at hrun
    split at hrun
    · cases hrun
    · rename_i s' evicted hop
      obtain ⟨⟨rest, metrics⟩, hrest, hreports⟩ := Option.map_eq_some_iff.mp hrun
      cases hreports
      obtain ⟨course', n', hon, hat, hshows⟩ := perform?_shows h op hop
      have htaken : Scene.At course' n' { s' with cast := s'.cast.takeNews.2 } :=
        ⟨hat.table, hat.ids, hat.now, hat.nextKey, hat.metrics, hat.owner⟩
      obtain ⟨last, k, hon', hshown, hmetrics⟩ := shown_of_run? ops htaken hrest
      exact ⟨last, k, hon.trans hon', .next hon.le (hshows.runsOn hon') hshown, hmetrics⟩

/-- The reports of a script are those of one course of an exchange with a single table, and so is
what was counted in the end, the faults of the owner's link apart. -/
theorem run?_shown {ops : List Op} {reports : List Report} {metrics : Metrics}
    (h : (start judgeDelay (.startingAt first)).run? ops = some (reports, metrics)) :
    ∃ (course : Exchange.Run (fun _ : Unit => judgeDelay) first) (n : Nat),
      Shown (fun k r => Shows course k r.waiting r.evicted) 0 reports ∧
        ∀ k, k ≠ .framingViolations → k ≠ .stalledPeers →
          metrics.total k = (Exchange.Run.metrics course n).total k := by
  let course : Exchange.Run (fun _ : Unit => judgeDelay) first := ⟨fun _ => .advance 0⟩
  have hat : (start judgeDelay (.startingAt first)).At course 0 :=
    ⟨rfl, rfl, rfl, rfl, fun _ _ _ => rfl, owned_start⟩
  obtain ⟨course', n, -, hshown, hmetrics⟩ := shown_of_run? ops hat h
  exact ⟨course', n, hshown, hmetrics⟩

end ReverseTunnel.Rehearsal.Pairing.Scene
