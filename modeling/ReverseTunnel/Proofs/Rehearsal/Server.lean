import ReverseTunnel.Proofs.Rehearsal.Client
import ReverseTunnel.Proofs.Rehearsal.Ports
import ReverseTunnel.Proofs.Server.Teardown
import ReverseTunnel.Rehearsal.Server

/-!
What the rehearsals of a server come to.

What is proved: whatever script is played, its reports are those of one course of the server,
at moments that follow one another, and what was counted in the end is what was counted in
that course (`run?_shown`). A report that lists proxies lists those of its moment, and the
admin interface answers from what it sees then; a client beside the server is at moments of a
course of its own. The proxies that a report lists differ in their names, and none of their
listeners is in the way of another (`listed_apart`).

What is not said: there is no network, so that nobody comes to a proxy and nothing is dialed
with success, and the tables of the proxies stay empty (`Proofs.Rehearsal.Pairing` is about a
table). Nothing is said of what reaches the far ends of connections, which are the script's.
-/

namespace ReverseTunnel.Rehearsal.Server.Scene

open Client (Loop)
open Control (LinkEvent)
open ReverseTunnel.Server (Run Event Effect Registration)
open Session (ConnId)

variable {o : ReverseTunnel.Server.Options}
  {before course : Course (Run.step Seal.aes256Gcm) (Run.start o .fresh)} {m n : Nat} {s : Scene}

/-- A rehearsed client that runs beside the server. -/
def Runs (c : ClientLoop) (now : Nat) : Prop :=
  ∃ o before m, ClientLoop.Follows (o := o) before m c now

/-- The addresses of registered proxies. -/
def addresses (ps : List Registration) : List ReverseTunnel.Server.Bound := ps.map (·.bound)

/-- A scene shows a moment of a course, with what was counted until then. -/
structure At (course : Course (Run.step Seal.aes256Gcm) (Run.start o .fresh)) (n : Nat) (s : Scene) :
    Prop where
  run : course.state n = s.run
  metrics : Run.metrics course n = s.metrics
  client : ∀ c ∈ s.client, Runs c s.run.now
  apart : Apart (addresses s.run.registry.proxies)

/-- A rehearsed server is at a moment of a course that goes on from a moment of another. -/
def Follows (before : Course (Run.step Seal.aes256Gcm) (Run.start o .fresh)) (m : Nat) (s : Scene) :
    Prop :=
  ∃ course n, before.RunsOn m course n ∧ s.At course n

/-- Effects change only what a scene shows, and what they count is added up. -/
theorem foldl_effect (fx : List Effect) : ∀ s : Scene,
    (fx.foldl effect s).run = s.run ∧ (fx.foldl effect s).client = s.client ∧
      (fx.foldl effect s).metrics = s.metrics.addAll (fx.filterMap Effect.count?) := by
  induction fx with
  | nil => exact fun _ => ⟨rfl, rfl, rfl⟩
  | cons e fx ih =>
    intro s
    obtain ⟨hrun, hclient, hmetrics⟩ := ih (effect s e)
    rw [List.foldl_cons, hrun, hclient, hmetrics]
    cases e with
    | link c e => cases e <;> exact ⟨rfl, rfl, rfl⟩
    | table c e => cases e <;> exact ⟨rfl, rfl, rfl⟩
    | count n => exact ⟨rfl, rfl, rfl⟩

/-- What is registered is apart, if what is bound is bound beside it. -/
theorem apart_step (h : Apart (addresses s.run.registry.proxies)) {e : Event}
    (hbind : ∀ c bind, e = .handle c bind → bind = s.binder) :
    Apart (addresses (s.run.step Seal.aes256Gcm e).1.registry.proxies) := by
  rcases (Run.turn Seal.aes256Gcm s.run e).registry_cases with
    hsame | ⟨c, -, hforgets⟩ | ⟨c, bind, l, rest, msg, rfl, -, -, hrecorded⟩
  · rw [hsame]
    exact h
  · rw [hforgets]
    exact h.sublist (List.filter_sublist.map _)
  · obtain rfl := hbind c bind rfl
    generalize (s.run.step Seal.aes256Gcm (.handle c s.binder)).1.registry = reg at hrecorded
    cases hrecorded with
    | admits token =>
      rw [ReverseTunnel.Server.Registry.proxies_authenticate]
      exact h
    | rejects token => exact h
    | grants sealedRequest p hp =>
      obtain ⟨q, -, -, hdecided⟩ := ReverseTunnel.Server.valid_of_provision hp
      have hbound := h.bind (ReverseTunnel.Server.bind_of_decided hdecided)
      rw [addresses, ← List.map_singleton, ← List.map_append] at hbound
      exact hbound
    | keeps => exact h

theorem Follows.step (h : s.Follows before m) (e : Event)
    (hbind : ∀ c bind, e = .handle c bind → bind = s.binder) : (s.step e).Follows before m := by
  obtain ⟨course, n, hon, hrun, hmetrics, hclient, hapart⟩ := h
  obtain ⟨hrun', hclient', hmetrics'⟩ := foldl_effect (s.run.step Seal.aes256Gcm e).2
    { s with run := (s.run.step Seal.aes256Gcm e).1 }
  obtain ⟨hnext, heffects⟩ := course.turnedAt_succ n e
  rw [hrun] at hnext heffects
  refine ⟨course.turnedAt n e, n + 1, hon.turnedAt e, ?_, ?_, ?_, ?_⟩
  · rw [hnext, Scene.step, hrun']
  · rw [Scene.step, hmetrics', ← hmetrics, Run.metrics, Run.metrics, heffects, List.filterMap_append,
      Metrics.addAll, List.foldl_append]
    rfl
  · intro c hc
    rw [Scene.step, hclient'] at hc
    obtain ⟨o', before', m', hfollows⟩ := hclient c hc
    refine ⟨o', before', m', ?_⟩
    rw [Scene.step, hrun']
    exact hfollows.later (Run.now_le_step _ _ e)
  · rw [Scene.step, hrun']
    exact apart_step hapart hbind

theorem Follows.onLink (h : s.Follows before m) (c : ConnId) (e : LinkEvent) :
    (s.step (.link c e)).Follows before m := h.step _ nofun

theorem Follows.beside (h : s.Follows before m) (cast : Cast)
    (bound : List (String × ReverseTunnel.Server.Bound)) (shutDown : Bool) :
    ({ s with cast, bound, shutDown } : Scene).Follows before m := by
  obtain ⟨course, n, hon, h⟩ := h
  exact ⟨course, n, hon, h.run, h.metrics, h.client, h.apart⟩

theorem Follows.withClient (h : s.Follows before m) {client : Option ClientLoop}
    (hclient : ∀ c ∈ client, Runs c s.run.now) : ({ s with client } : Scene).Follows before m := by
  obtain ⟨course, n, hon, h⟩ := h
  exact ⟨course, n, hon, h.run, h.metrics, hclient, h.apart⟩

theorem Follows.mapClient (h : s.Follows before m) (f : ClientLoop → ClientLoop)
    (hf : ∀ c, Runs c s.run.now → Runs (f c) s.run.now) :
    ({ s with client := s.client.map f } : Scene).Follows before m := by
  obtain ⟨course, n, hon, hat⟩ := h
  refine Follows.withClient ⟨course, n, hon, hat⟩ fun c hc => ?_
  obtain ⟨c, hc', rfl⟩ := Option.map_eq_some_iff.mp hc
  exact hf c (hat.client c hc')

theorem Follows.each {f : Scene → ConnId → Scene}
    (hf : ∀ (s : Scene) (c : ConnId), s.Follows before m → (f s c).Follows before m)
    (h : s.Follows before m) (cs : List ConnId) : (cs.foldl f s).Follows before m :=
  List.foldlRecOn cs f h fun s h c _ => hf s c h

theorem Follows.settle (h : s.Follows before m) : s.settle.Follows before m := by
  have hkeeps (c : ConnId) : (grip c).Keeps (Follows before m) :=
    ⟨fun e _ h => h.onLink c e, fun s h =>
      Follows.beside (h.step (.handle c s.binder) fun _ _ he => (Event.handle.inj he).2.symm) _ _ _⟩
  have hlinks := Follows.each (fun s c h => (hkeeps c).settle h) h (s.run.connections.map (·.id))
  have hwound (s : Scene) (h : s.Follows before m) :=
    Follows.each (fun s c h => h.step (.wind c) nofun) h (s.run.proxies.map (·.owner))
  exact (hwound _ hlinks).mapClient _ fun c ⟨o', before', m', hc⟩ => ⟨o', before', m', hc.settle⟩

theorem Follows.act (h : s.Follows before m) (key : Nat) (a : PeerAct) :
    (s.act key a).Follows before m := by
  have hcast := h.beside (s.cast.act key a).1 s.bound s.shutDown
  rw [Scene.act]
  dsimp only
  split
  · exact hcast
  · exact hcast.onLink _ _
  · exact hcast.onLink _ _

theorem Follows.advanceTo {target : Nat} : ∀ (fuel : Nat) {s : Scene}, s.Follows before m →
    (Scene.advanceTo fuel target s).Follows before m
  | 0, _, h => h
  | fuel + 1, s, h => by
    rw [Scene.advanceTo]
    split
    · exact Follows.advanceTo fuel (h.step (.advance _) nofun).settle
    · exact h.step (.advance _) nofun

theorem Follows.tellShutDown (h : s.Follows before m) (c : ConnId) :
    (s.tellShutDown c).Follows before m := h.onLink c _

/-- What the admin interface sees of a moment of a course. -/
structure Sees (course : Course (Run.step Seal.aes256Gcm) (Run.start o .fresh)) (n : Nat)
    (v : Admin.View) : Prop where
  metrics : v.metrics = Run.metrics course n
  proxies : v.proxies.Perm (course.state n).snapshot
  client : ∀ state ∈ v.client, ∃ (o : Client.Options)
    (c : Course (Loop.stepAt Seal.aes256Gcm) (Loop.start o)) (k : Nat), state = (c.state k).state

/-- A report shows the server as it is at a moment. -/
structure Shows (course : Course (Run.step Seal.aes256Gcm) (Run.start o .fresh)) (n : Nat)
    (r : Report) : Prop where
  snapshot : ∀ shown ∈ r.snapshot, shown.1.Perm (course.state n).snapshot ∧
    shown.2.Perm ((course.state n).registry.authenticated.map (·.number))
  apart : ∀ shown ∈ r.snapshot, Apart (shown.1.map (·.registration.bound))
  response : ∀ response ∈ r.response, ∃ v method path, Sees course n v ∧
    response = Admin.respond v method path

theorem At.sees (h : s.At course n) : Sees course n s.view := by
  refine ⟨h.metrics.symm, ?_, fun state hstate => ?_⟩
  · rw [h.run]
    exact List.mergeSort_perm _ _
  · obtain ⟨c, hc, rfl⟩ := Option.map_eq_some_iff.mp hstate
    obtain ⟨o', before', m', course', k, -, -, hstate⟩ := h.client c hc
    exact ⟨o', course', k, by rw [hstate]⟩

theorem At.shows_snapshot (h : s.At course n) :
    Shows course n { blank with snapshot := some s.overview } := by
  have hproxies := List.mergeSort_perm s.run.snapshot fun a b =>
    decide (a.registration.name ≤ b.registration.name)
  refine ⟨fun shown hshown => ?_, fun shown hshown => ?_, nofun⟩
  · cases hshown
    rw [h.run]
    exact ⟨hproxies, List.mergeSort_perm _ _⟩
  · cases hshown
    refine Apart.perm ?_ (hproxies.map _).symm
    rw [Run.snapshot, List.map_map]
    exact h.apart

theorem At.shows_response (h : s.At course n) (method path : String) :
    Shows course n { blank with response := some (Admin.respond s.view method path) } := by
  refine ⟨nofun, nofun, fun response hresponse => ?_⟩
  cases hresponse
  exact ⟨s.view, method, path, h.sees, rfl⟩

theorem Shows.runsOn {course' : Course (Run.step Seal.aes256Gcm) (Run.start o .fresh)} {n' : Nat}
    {r : Report} (h : Shows course n r) (hon : course.RunsOn n course' n') : Shows course' n r := by
  obtain ⟨hstate, heffects⟩ := hon.same
  refine ⟨hstate ▸ h.snapshot, h.apart, fun response hresponse => ?_⟩
  obtain ⟨v, method, path, hsees, hresponse⟩ := h.response response hresponse
  refine ⟨v, method, path, ⟨?_, hstate ▸ hsees.proxies, hsees.client⟩, hresponse⟩
  rw [hsees.metrics, Run.metrics, Run.metrics, heffects]

theorem shows_blank (course : Course (Run.step Seal.aes256Gcm) (Run.start o .fresh)) (n : Nat) :
    Shows course n blank := ⟨nofun, nofun, nofun⟩

theorem perform?_shows {s' : Scene} {r : Report} (h : s.At course n) (op : Op)
    (hop : s.perform? op = some (s', r)) : ∃ course' n', course.RunsOn n course' n' ∧
      s'.At course' n' ∧ Shows course' n' r := by
  have hhere : s.Follows course n := ⟨course, n, .refl course n, h⟩
  -- most steps show nothing of the server
  have hblank {s' : Scene} (h' : s'.Follows course n) : ∃ course' n', course.RunsOn n course' n' ∧
      s'.At course' n' ∧ Shows course' n' blank := by
    obtain ⟨course', n', hon, hat⟩ := h'
    exact ⟨course', n', hon, hat, shows_blank course' n'⟩
  cases op with
  | connect name =>
    rw [perform?] at hop
    split at hop
    · cases hop
      have hconnected := (hhere.step (.connect none) nofun).beside (s.cast.enter name s.run.nextConn)
        (s.step (.connect none)).bound (s.step (.connect none)).shutDown
      refine hblank (Follows.settle ?_)
      split
      · exact hconnected.tellShutDown _
      · exact hconnected
    · cases hop
      exact ⟨course, n, .refl course n, h, nofun, nofun, nofun⟩
  | send name bytes =>
    obtain ⟨key, -, hsent⟩ := Option.map_eq_some_iff.mp hop
    cases hsent
    exact hblank (hhere.act key _).settle
  | peer name a =>
    obtain ⟨key, -, hacted⟩ := Option.map_eq_some_iff.mp hop
    cases hacted
    exact hblank (hhere.act key a).settle
  | dial =>
    cases hop
    exact ⟨course, n, .refl course n, h, nofun, nofun, nofun⟩
  | client options =>
    cases hop
    obtain ⟨before', hstart⟩ := ClientLoop.follows_start options s.run.now
    refine hblank (hhere.withClient fun c hc => ?_)
    cases hc
    exact ⟨options, before', 0, hstart.settle⟩
  | snapshot =>
    cases hop
    exact ⟨course, n, .refl course n, h, h.shows_snapshot⟩
  | admin method path =>
    cases hop
    exact ⟨course, n, .refl course n, h, h.shows_response method path⟩
  | advance ms =>
    cases hop
    exact hblank (hhere.advanceTo _)
  | stop =>
    cases hop
    have hstopped := hhere.mapClient (·.shutDown s.run.now) fun c ⟨o', before', m', hc⟩ =>
      ⟨o', before', m', hc.shutDown⟩
    exact hblank (Follows.each (fun s c h => h.tellShutDown c)
      (hstopped.beside s.cast s.bound true) _).settle

/-- What is asked for in a report is the script's, and says nothing of the server. -/
theorem Shows.told {r : Report} (h : Shows course n r) (news : List (String × News))
    (states : List (Nat × Client.State)) (bound : List (String × ReverseTunnel.Server.Bound)) :
    Shows course n { r with news, states, bound } := ⟨h.snapshot, h.apart, h.response⟩

theorem shown_of_run? : ∀ (ops : List Op)
    {course : Course (Run.step Seal.aes256Gcm) (Run.start o .fresh)} {n : Nat} {s : Scene}
    {reports : List Report} {metrics : Metrics}, s.At course n →
    s.run? ops = some (reports, metrics) → ∃ course' n', course.RunsOn n course' n' ∧
      Shown (Shows course') n reports ∧ metrics = Run.metrics course' n'
  | [], course, n, s, _, _, h, hrun => by
    cases hrun
    exact ⟨course, n, .refl course n, .none n, h.metrics.symm⟩
  | op :: ops, course, n, s, _, _, h, hrun => by
    rw [run?] at hrun
    split at hrun
    · cases hrun
    · rename_i s' r hop
      obtain ⟨⟨rest, metrics⟩, hrest, hreports⟩ := Option.map_eq_some_iff.mp hrun
      cases hreports
      obtain ⟨course', n', hon, hat, hshows⟩ := perform?_shows h op hop
      have htaken : Scene.At course' n' { s' with
          cast := s'.cast.takeNews.2, client := s'.client.map fun c => c.takeSeen.2 } := by
        refine ⟨hat.run, hat.metrics, fun c hc => ?_, hat.apart⟩
        obtain ⟨c, hc', rfl⟩ := Option.map_eq_some_iff.mp hc
        exact hat.client c hc'
      obtain ⟨last, k, hon', hshown, hmetrics⟩ := shown_of_run? ops htaken hrest
      exact ⟨last, k, hon.trans hon',
        .next hon.le ((hshows.runsOn hon').told _ _ _) hshown, hmetrics⟩

/-- The reports of a script are those of one course, and so is what was counted in the end. -/
theorem run?_shown {inProcess : Bool} {ops : List Op} {reports : List Report} {metrics : Metrics}
    (h : (start o inProcess).run? ops = some (reports, metrics)) :
    ∃ (course : Course (Run.step Seal.aes256Gcm) (Run.start o .fresh)) (n : Nat),
      Shown (Shows course) 0 reports ∧ metrics = Run.metrics course n := by
  let course : Course (Run.step Seal.aes256Gcm) (Run.start o .fresh) := ⟨fun _ => .advance 0⟩
  have hat : (start o inProcess).At course 0 :=
    ⟨rfl, rfl, fun c hc => absurd hc (Option.not_mem_none c), List.Pairwise.nil⟩
  obtain ⟨course', n, -, hshown, hmetrics⟩ := shown_of_run? ops hat h
  exact ⟨course', n, hshown, hmetrics⟩

/-- No two proxies that a report lists have one name, or are in each other's way. -/
theorem listed_apart {inProcess : Bool} {ops : List Op} {reports : List Report} {metrics : Metrics}
    (h : (start o inProcess).run? ops = some (reports, metrics)) :
    ∀ r ∈ reports, ∀ shown ∈ r.snapshot, (shown.1.map (·.registration.name)).Nodup ∧
      Apart (shown.1.map (·.registration.bound)) := by
  obtain ⟨course, -, hshown, -⟩ := run?_shown h
  intro r hr shown hsnapshot
  obtain ⟨n, -, hshows⟩ := hshown.mem r hr
  obtain ⟨hproxies, -⟩ := hshows.snapshot shown hsnapshot
  refine ⟨(hproxies.map _).nodup_iff.mpr ?_, hshows.apart shown hsnapshot⟩
  rw [Run.snapshot, List.map_map]
  exact (Run.orderly course n).registry.names

end ReverseTunnel.Rehearsal.Server.Scene
