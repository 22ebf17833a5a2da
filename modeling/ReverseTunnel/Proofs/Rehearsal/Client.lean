import ReverseTunnel.Proofs.Client.Connections
import ReverseTunnel.Proofs.Client.Knowledge
import ReverseTunnel.Proofs.Rehearsal.Script
import ReverseTunnel.Proofs.Rehearsal.Turn
import ReverseTunnel.Rehearsal.ClientLoop
import ReverseTunnel.Rehearsal.ClientSession

/-!
What the rehearsals of a client come to.

What is proved: whatever script is played, its reports are those of one course of the client,
at moments that follow one another and on a clock that does not go back
(`ClientLoop.rehearse?_shown`, and `ClientSession.Scene.rehearse?_shown` for one control
connection). So what is known of all courses of a client is known of all that a rehearsal
shows of it. The state that a rehearsed connection shows is the last one that was published.

What is not said: a rehearsal has no network, so its courses are few. What it dials refuses
at once, and no attempt to dial back gets anywhere. Nothing is said here of what reaches the
far end of a connection, which is the script's.
-/

namespace ReverseTunnel.Rehearsal

open Client (Loop LoopEvent Serving ServingEvent ServingEffect)

/-! ## The loop of a client -/

namespace ClientLoop

variable {o : Client.Options} {before : Course (Loop.stepAt Seal.aes256Gcm) (Loop.start o)}
  {m now : Nat} {c : ClientLoop}

/-- A rehearsed client is at a moment of a course that goes on from a moment of another, and its
clock is not past now. -/
def Follows (before : Course (Loop.stepAt Seal.aes256Gcm) (Loop.start o)) (m : Nat)
    (c : ClientLoop) (now : Nat) : Prop :=
  ∃ course n, before.RunsOn m course n ∧ OnClock course now ∧ course.state n = c.loop

theorem Follows.later (h : Follows before m c now) {later : Nat} (hlater : now ≤ later) :
    Follows before m c later := by
  obtain ⟨course, n, hon, hclock, hstate⟩ := h
  exact ⟨course, n, hon, hclock.later hlater, hstate⟩

theorem Follows.step (h : Follows before m c now) (e : LoopEvent) :
    Follows before m (c.step now e).1 now := by
  obtain ⟨course, n, hon, hclock, hstate⟩ := h
  refine ⟨course.turnedAt n (now, e), n + 1, hon.turnedAt _, hclock.turnedAt n e, ?_⟩
  rw [(course.turnedAt_succ n _).1, hstate]
  rfl

theorem Follows.settle (h : Follows before m c now) : Follows before m (c.settle now) now := by
  have hdialed := ((h.step .wake).step .go).step (.dialed false)
  rw [ClientLoop.settle]
  dsimp only
  split
  · exact hdialed
  · exact hdialed

theorem Follows.shutDown (h : Follows before m c now) : Follows before m (c.shutDown now) now :=
  (h.step .shutDown).settle

theorem Follows.advance {target : Nat} : ∀ (fuel : Nat) {c : ClientLoop} {now : Nat},
    Follows before m c now → now ≤ target → Follows before m (c.advance fuel now target) target
  | 0, _, _, h, hle => h.later hle
  | fuel + 1, c, now, h, hle => by
    rw [ClientLoop.advance]
    split
    · rename_i t ht
      obtain ⟨hnow, htarget⟩ := due_of_min? ht
      exact Follows.advance fuel (h.later (Nat.le_of_lt hnow)).settle htarget
    · exact h.later hle

theorem follows_start (o : Client.Options) (now : Nat) :
    ∃ before : Course (Loop.stepAt Seal.aes256Gcm) (Loop.start o),
      Follows before 0 { loop := .start o } now :=
  ⟨⟨fun _ => (0, .wake)⟩, _, 0, .refl _ 0, ⟨fun _ => Nat.le_refl 0, fun _ => Nat.zero_le now⟩, rfl⟩

/-- A report shows the client as it is at a moment. -/
def Shows (course : Course (Loop.stepAt Seal.aes256Gcm) (Loop.start o)) (n : Nat)
    (r : ClientReport) : Prop :=
  r.state = (course.state n).state ∧ r.finished = ((course.state n).phase = .stopped : Bool)

theorem shows_report {course : Course (Loop.stepAt Seal.aes256Gcm) (Loop.start o)} {n : Nat}
    (h : course.state n = c.loop) : Shows course n c.report.1 :=
  ⟨by rw [h]; rfl, by rw [h]; rfl⟩

theorem shown_of_reports : ∀ (ops : List ClientOp)
    {course : Course (Loop.stepAt Seal.aes256Gcm) (Loop.start o)} {n now : Nat} {c : ClientLoop}
    {reports : List ClientReport}, OnClock course now → course.state n = c.loop →
    (run? c.report.2 now ops).map (c.report.1 :: ·) = some reports →
      ∃ course' n' now', course.RunsOn n course' n' ∧ OnClock course' now' ∧
        Shown (Shows course') n reports
  | [], course, n, now, _, _, hclock, hstate, hrun => by
    obtain ⟨rest, hrest, rfl⟩ := Option.map_eq_some_iff.mp hrun
    cases hrest
    exact ⟨course, n, now, .refl course n, hclock,
      .next (Nat.le_refl n) (shows_report hstate) (.none n)⟩
  | op :: ops, course, n, now, c, _, hclock, hstate, hrun => by
    obtain ⟨rest, hrest, rfl⟩ := Option.map_eq_some_iff.mp hrun
    have hhere : Follows course n c.report.2 now := ⟨course, n, .refl course n, hclock, hstate⟩
    -- whatever the step is, the script goes on with what it leaves
    have hnext {c' : ClientLoop} {now' : Nat} (h : Follows course n c' now')
        (hrun : (run? c'.report.2 now' ops).map (c'.report.1 :: ·) = some rest) :
        ∃ course' n' now', course.RunsOn n course' n' ∧ OnClock course' now' ∧
          Shown (Shows course') n (c.report.1 :: rest) := by
      obtain ⟨course', n', hon, hclock', hstate'⟩ := h
      obtain ⟨last, k, later, hon', hlater, hshown⟩ := shown_of_reports ops hclock' hstate' hrun
      have hsame : last.state n = c.loop :=
        (hon.trans hon').same.1.trans hstate
      exact ⟨last, k, later, hon.trans hon', hlater,
        .next (Nat.le_refl n) (shows_report hsame) (hshown.of_le hon.le)⟩
    cases op with
    | peer => cases hrest
    | advance ms => exact hnext (hhere.advance (ms + 1) (Nat.le_add_right now ms)) hrest
    | stop => exact hnext hhere.shutDown hrest
    | rest => exact hnext hhere hrest

theorem rehearse?_shown {ops : List ClientOp} {reports : List ClientReport}
    (h : rehearse? o ops = some reports) :
    ∃ (course : Course (Loop.stepAt Seal.aes256Gcm) (Loop.start o)) (now : Nat),
      OnClock course now ∧ Shown (Shows course) 0 reports := by
  obtain ⟨before, hstart⟩ := follows_start o 0
  obtain ⟨course, n, -, hclock, hstate⟩ := hstart.settle
  obtain ⟨course', -, now, -, hclock', hshown⟩ := shown_of_reports ops hclock hstate h
  exact ⟨course', now, hclock', hshown.of_le (Nat.zero_le n)⟩

end ClientLoop

/-! ## One connection of a client -/

namespace ClientSession.Scene

variable {o : Client.Options} {before : Course (Serving.stepAt o Seal.aes256Gcm) (Serving.start o 0).1}
  {m now : Nat} {s : Scene}

/-- A scene shows a moment of a course. -/
structure At (course : Course (Serving.stepAt o Seal.aes256Gcm) (Serving.start o 0).1) (n now : Nat)
    (s : Scene) : Prop where
  options : s.options = o
  moment : s.now = now
  clock : OnClock course now
  serving : course.state n = s.serving
  /-- The state that is shown is the last one that was published. -/
  state : s.state = (Client.published (course.effects n)).getLast?.getD .connectedUnauth

/-- A rehearsed connection is at a moment of a course that goes on from a moment of another. -/
def Follows (before : Course (Serving.stepAt o Seal.aes256Gcm) (Serving.start o 0).1) (m now : Nat)
    (s : Scene) : Prop :=
  ∃ course n, before.RunsOn m course n ∧ s.At course n now

/-- Effects change only what a scene shows, and the last state that they publish becomes its own. -/
theorem foldl_effect (fx : List ServingEffect) : ∀ acc : Scene × List Nat,
    (fx.foldl effect acc).1.options = acc.1.options ∧
    (fx.foldl effect acc).1.serving = acc.1.serving ∧
    (fx.foldl effect acc).1.now = acc.1.now ∧
    (fx.foldl effect acc).1.state = (Client.published fx).getLast?.getD acc.1.state := by
  induction fx with
  | nil => exact fun _ => ⟨rfl, rfl, rfl, rfl⟩
  | cons e fx ih =>
    intro acc
    obtain ⟨hoptions, hserving, hnow, hstate⟩ := ih (effect acc e)
    rw [List.foldl_cons, hoptions, hserving, hnow, hstate]
    cases e with
    | link e => cases e <;> exact ⟨rfl, rfl, rfl, rfl⟩
    | dial attempt e => cases e <;> exact ⟨rfl, rfl, rfl, rfl⟩
    | publish state =>
      have hlast : (Client.published (.publish state :: fx)).getLast? =
          some ((Client.published fx).getLast?.getD state) := List.getLast?_cons
      rw [hlast]
      by_cases hsame : acc.1.state = state <;> simp [effect, hsame]

theorem Follows.moment (h : s.Follows before m now) : s.now = now := by
  obtain ⟨_, _, _, hat⟩ := h
  exact hat.moment

theorem Follows.beside (h : s.Follows before m now) (states : List (Nat × Client.State)) (cast : Cast)
    (nonces : Nat) : ({ s with states, cast, nonces } : Scene).Follows before m now := by
  obtain ⟨course, n, hon, h⟩ := h
  exact ⟨course, n, hon, h.options, h.moment, h.clock, h.serving, h.state⟩

theorem Follows.absorb (h : s.Follows before m now) (e : ServingEvent) :
    (s.absorb (s.serving.step s.options Seal.aes256Gcm s.now e)).1.Follows before m now := by
  obtain ⟨course, n, hon, rfl, rfl, hclock, hserving, hstate⟩ := h
  obtain ⟨hoptions, hsame, hnow, hlast⟩ := foldl_effect
    (s.serving.step s.options Seal.aes256Gcm s.now e).2
    ({ s with serving := (s.serving.step s.options Seal.aes256Gcm s.now e).1 }, [])
  obtain ⟨hnext, heffects⟩ := course.turnedAt_succ n (s.now, e)
  rw [hserving, Serving.stepAt] at hnext heffects
  refine ⟨course.turnedAt n (s.now, e), n + 1, hon.turnedAt _, hoptions, hnow,
    hclock.turnedAt n e, ?_, ?_⟩
  · rw [hnext, Scene.absorb, hsame]
  · rw [Scene.absorb, hlast, heffects, Client.published_append, List.getLast?_append, hstate]
    cases (Client.published (s.serving.step s.options Seal.aes256Gcm s.now e).2).getLast? with
    | none => rfl
    | some state => rfl

theorem Follows.step (h : s.Follows before m now) (e : ServingEvent) :
    (s.step e).Follows before m now :=
  List.foldlRecOn _ _ (h.absorb e) fun _ h attempt _ => h.absorb (.dial attempt .refused)

theorem Follows.beats : ∀ (fuel : Nat) {s : Scene}, s.Follows before m now →
    (Scene.beats fuel s).Follows before m now
  | 0, _, h => h
  | fuel + 1, _, h => Follows.beats fuel (h.step .beat)

theorem Follows.settle (h : s.Follows before m now) : s.settle.Follows before m now := by
  have hkeeps : grip.Keeps (Follows before m now) :=
    ⟨fun e _ h => h.step (.link e), fun s h =>
      (h.beside s.states s.cast (s.nonces + 1)).step (.handle (Bytes.be 12 s.nonces))⟩
  exact hkeeps.settle (h.beats _)

theorem Follows.act (h : s.Follows before m now) (key : Nat) (a : PeerAct) :
    (s.act key a).Follows before m now := by
  have hcast := h.beside s.states (s.cast.act key a).1 s.nonces
  rw [Scene.act]
  dsimp only
  split
  · exact hcast
  · exact hcast.step _
  · exact hcast.step _

theorem Follows.later (h : s.Follows before m now) {later : Nat} (hlater : now ≤ later) :
    ({ s with now := later } : Scene).Follows before m later := by
  obtain ⟨course, n, hon, h⟩ := h
  exact ⟨course, n, hon, h.options, rfl, h.clock.later hlater, h.serving, h.state⟩

theorem Follows.advanceTo {target : Nat} : ∀ (fuel : Nat) {s : Scene} {now : Nat},
    s.Follows before m now → now ≤ target → (Scene.advanceTo fuel target s).Follows before m target
  | 0, _, _, h, hle => h.later hle
  | fuel + 1, s, now, h, hle => by
    rw [Scene.advanceTo]
    split
    · rename_i t ht
      obtain ⟨hnow, htarget⟩ := due_of_min? ht
      have hlater : now ≤ t := h.moment ▸ Nat.le_of_lt hnow
      exact Follows.advanceTo fuel (h.later hlater).settle htarget
    · exact h.later hle

theorem Follows.perform? {s' : Scene} (h : s.Follows before m now) (op : Op)
    (hop : s.perform? op = some s') : ∃ later, s'.Follows before m later := by
  cases op with
  | peer name a =>
    obtain ⟨key, -, rfl⟩ := Option.map_eq_some_iff.mp hop
    exact ⟨now, (h.act key a).settle⟩
  | advance ms =>
    rw [Scene.perform?, Option.some.injEq] at hop
    subst hop
    exact ⟨s.now + ms, h.advanceTo _ (h.moment ▸ Nat.le_add_right _ ms)⟩
  | stop =>
    rw [Scene.perform?, Option.some.injEq] at hop
    subst hop
    exact ⟨now, (h.step _).settle⟩
  | rest =>
    rw [Scene.perform?, Option.some.injEq] at hop
    subst hop
    exact ⟨now, h⟩

theorem at_start (o : Client.Options) : ∃ course n, (start o).At (o := o) course n 0 := by
  let course : Course (Serving.stepAt o Seal.aes256Gcm) (Serving.start o 0).1 := ⟨fun _ => (0, .beat)⟩
  obtain ⟨hoptions, hserving, hnow, hlast⟩ := foldl_effect (Serving.start o 0).2
    ({ options := o, serving := (Serving.start o 0).1, cast := Cast.enter {} "s1" linkKey }, [])
  have hgreets : Client.published (Serving.start o 0).2 = [.connectedUnauth] :=
    (Serving.performs_performAll o 0 (Client.Session.greeting o) _).states
  have hclock : OnClock course 0 := ⟨fun _ => Nat.le_refl 0, fun _ => Nat.le_refl 0⟩
  have hfollows : (start o).Follows course 0 0 := by
    refine Follows.settle ⟨course, 0, .refl course 0, hoptions, hnow, hclock, hserving.symm, ?_⟩
    refine hlast.trans ?_
    rw [hgreets]
    rfl
  obtain ⟨later, n, -, hat⟩ := hfollows
  exact ⟨later, n, hat⟩

/-- A report shows the connection as it is at a moment. -/
structure Shows (course : Course (Serving.stepAt o Seal.aes256Gcm) (Serving.start o 0).1) (n : Nat)
    (r : Report) : Prop where
  session : r.session = (course.state n).session
  finished : r.finished = ((course.state n).link.stage = .finished : Bool)
  state : r.state = (Client.published (course.effects n)).getLast?.getD .connectedUnauth

theorem At.shows {course : Course (Serving.stepAt o Seal.aes256Gcm) (Serving.start o 0).1} {n : Nat}
    (h : s.At course n now) : Shows course n s.report.1 :=
  ⟨by rw [h.serving]; rfl, by rw [h.serving]; rfl, h.state⟩

/-- What is shown of a moment is shown of it however the course goes on. -/
theorem Shows.runsOn {course course' : Course (Serving.stepAt o Seal.aes256Gcm) (Serving.start o 0).1}
    {n n' : Nat} {r : Report} (h : Shows course n r) (hon : course.RunsOn n course' n') :
    Shows course' n r := by
  obtain ⟨hstate, heffects⟩ := hon.same
  obtain ⟨hsession, hfinished, hlast⟩ := h
  rw [← hstate] at hsession hfinished
  rw [← heffects] at hlast
  exact ⟨hsession, hfinished, hlast⟩

theorem shown_of_reports : ∀ (ops : List Op)
    {course : Course (Serving.stepAt o Seal.aes256Gcm) (Serving.start o 0).1} {n now : Nat} {s : Scene}
    {reports : List Report}, s.At course n now →
    (run? s.report.2 ops).map (s.report.1 :: ·) = some reports →
      ∃ course' n' now', course.RunsOn n course' n' ∧ OnClock course' now' ∧
        Shown (Shows course') n reports
  | [], course, n, now, _, _, h, hrun => by
    obtain ⟨rest, hrest, rfl⟩ := Option.map_eq_some_iff.mp hrun
    cases hrest
    exact ⟨course, n, now, .refl course n, h.clock, .next (Nat.le_refl n) h.shows (.none n)⟩
  | op :: ops, course, n, now, s, _, h, hrun => by
    obtain ⟨rest, hrest, rfl⟩ := Option.map_eq_some_iff.mp hrun
    rw [run?] at hrest
    split at hrest
    · cases hrest
    · rename_i s' hop
      have hhere : s.Follows course n now := ⟨course, n, .refl course n, h⟩
      obtain ⟨later, course', n', hon, hat⟩ := (hhere.beside [] _ s.nonces).perform? op hop
      obtain ⟨last, k, end', hon', hclock, hshown⟩ := shown_of_reports ops hat hrest
      exact ⟨last, k, end', hon.trans hon', hclock,
        .next (Nat.le_refl n) (h.shows.runsOn (hon.trans hon')) (hshown.of_le hon.le)⟩

theorem rehearse?_shown {ops : List Op} {reports : List Report}
    (h : rehearse? o ops = some reports) :
    ∃ (course : Course (Serving.stepAt o Seal.aes256Gcm) (Serving.start o 0).1) (now : Nat),
      OnClock course now ∧ Shown (Shows course) 0 reports := by
  obtain ⟨course, n, hat⟩ := at_start o
  obtain ⟨course', -, now, -, hclock, hshown⟩ := shown_of_reports ops hat h
  exact ⟨course', now, hclock, hshown.of_le (Nat.zero_le n)⟩

end ClientSession.Scene

end ReverseTunnel.Rehearsal
