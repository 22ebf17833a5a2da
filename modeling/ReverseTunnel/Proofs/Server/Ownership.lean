import ReverseTunnel.Proofs.Course
import ReverseTunnel.Proofs.Server.Connections

/-!
Who owns what on a server.

Owners and names of registered proxies are each distinct, and the names are trimmed and
not blank (`Registry.Orderly`). Whoever is authenticated or owns a proxy is a connection
that has not finished (`Run.Orderly`). Both hold at every moment of every course of a
server, and nothing that happens on one connection changes what is remembered of
another.
-/

namespace ReverseTunnel.Server

open Control
open Session (ConnId IdSource)
open Wire (Message)

variable {reg reg' : Registry} {c d : ConnId} {p : Registration}

/-! ## What is registered -/

namespace Registry

/-- Owners and names are each distinct, and names are trimmed and not blank. -/
structure Orderly (reg : Registry) : Prop where
  owners : (reg.proxies.map (·.owner)).Nodup
  names : (reg.proxies.map (·.name)).Nodup
  named : ∀ p ∈ reg.proxies, p.name ≠ "" ∧ Text.trim p.name = p.name

theorem Orderly.of_proxies (h : reg.Orderly) (hp : reg'.proxies = reg.proxies) : reg'.Orderly where
  owners := hp ▸ h.owners
  names := hp ▸ h.names
  named := hp ▸ h.named

theorem owns_eq_false (h : reg.owns c = false) (p : Registration) (hp : p ∈ reg.proxies) :
    p.owner ≠ c := by
  simp only [owns, List.any_eq_false, decide_eq_true_eq] at h
  exact h p hp

theorem isTaken_eq_false {name : String} (h : reg.isTaken name = false) (p : Registration)
    (hp : p ∈ reg.proxies) : p.name ≠ name := by
  simp only [isTaken, List.any_eq_false, decide_eq_true_eq] at h
  exact h p hp

theorem nodup_map_append {β : Type} {f : Registration → β} {ps : List Registration}
    (hn : (ps.map f).Nodup) (hp : ∀ q ∈ ps, f q ≠ f p) : ((ps ++ [p]).map f).Nodup := by
  rw [List.map_append, List.map_singleton, List.nodup_append]
  refine ⟨hn, List.nodup_singleton _, ?_⟩
  intro x hx y hy
  obtain ⟨q, hq, rfl⟩ := List.mem_map.mp hx
  rw [List.mem_singleton] at hy
  rw [hy]
  exact hp q hq

theorem Orderly.register (h : reg.Orderly) (howner : reg.owns p.owner = false)
    (hfree : reg.isTaken p.name = false) (hname : p.name ≠ "" ∧ Text.trim p.name = p.name) :
    (reg.register p).Orderly where
  owners := nodup_map_append h.owners (owns_eq_false howner)
  names := nodup_map_append h.names (isTaken_eq_false hfree)
  named q hq := by
    rcases List.mem_append.mp hq with hq | hq
    · exact h.named q hq
    · rw [List.mem_singleton.mp hq]
      exact hname

theorem Orderly.forget (h : reg.Orderly) (c : ConnId) : (reg.forget c).Orderly where
  owners := h.owners.sublist (List.filter_sublist.map _)
  names := h.names.sublist (List.filter_sublist.map _)
  named q hq := h.named q (List.mem_of_mem_filter hq)

/-- Whether something is remembered of a connection. -/
def knows (reg : Registry) (c : ConnId) : Bool := reg.isAuthenticated c || reg.owns c

theorem knows_of_owner (hp : p ∈ reg.proxies) : reg.knows p.owner = true := by
  have howns : reg.owns p.owner = true := List.any_eq_true.mpr ⟨p, hp, by simp⟩
  rw [knows, howns, Bool.or_true]

theorem knows_forget (h : (reg.forget c).knows d = true) : d ≠ c ∧ reg.knows d = true := by
  rw [knows, Bool.or_eq_true] at h
  rcases h with h | h
  · change (reg.dismiss c).isAuthenticated d = true at h
    rw [isAuthenticated_dismiss] at h
    simp only [Bool.and_eq_true, bne_iff_ne] at h
    exact ⟨h.2, by rw [knows, h.1, Bool.true_or]⟩
  · obtain ⟨p, hp, hd⟩ := List.any_eq_true.mp h
    obtain ⟨hp, hc⟩ := List.mem_filter.mp hp
    simp only [decide_eq_true_eq] at hc hd
    exact ⟨hd ▸ hc, hd ▸ knows_of_owner hp⟩

end Registry

section Recorded

variable {o : Options} {a : Seal.Aead} {bind : Binder} {now : Nat} {m : Message}

theorem Recorded.orderly (h : Recorded o a bind now reg c m reg') (ho : reg.Orderly) :
    reg'.Orderly := by
  cases h with
  | admits token => exact ho.of_proxies (Registry.proxies_authenticate reg c)
  | rejects token => exact ho.of_proxies rfl
  | grants sealedRequest p hp =>
    obtain ⟨q, hvalid, hfree, hdecided⟩ := valid_of_provision hp
    obtain ⟨howner, hname⟩ := eq_of_decided hdecided
    refine ho.register (howner ▸ hvalid.single) (hname ▸ hfree) ?_
    rw [hname]
    exact ⟨hvalid.named, Text.trim_trim q.name⟩
  | keeps => exact ho

theorem Recorded.knows (h : Recorded o a bind now reg c m reg') (hd : reg'.knows d = true) :
    d = c ∨ reg.knows d = true := by
  by_cases hdc : d = c
  · exact .inl hdc
  · obtain ⟨hauth, howned⟩ := h.apart hdc
    right
    rw [Registry.knows, Bool.or_eq_true] at hd
    rcases hd with hd | hd
    · rw [Registry.knows, ← hauth, hd, Bool.true_or]
    · obtain ⟨p, hp, hpd⟩ := List.any_eq_true.mp hd
      have hmem : p ∈ reg.ownedBy d := howned ▸ List.mem_filter.mpr ⟨hp, hpd⟩
      have howner : p.owner = d := by simpa using hpd
      exact howner ▸ Registry.knows_of_owner (List.mem_of_mem_filter hmem)

end Recorded

/-! ## Who is there -/

namespace Run

variable {r : Run} {x : Run × List Effect} {f : Link → Link} {a : Seal.Aead} {e : Event}

/-- A connection has come in and has not finished. -/
def Serves (r : Run) (c : ConnId) : Prop := ∃ l, r.link? c = some l ∧ l.stage ≠ .finished

/-- The registry is orderly, and it remembers only connections that have not finished. -/
structure Orderly (r : Run) : Prop where
  registry : r.registry.Orderly
  links : ∀ c l, r.link? c = some l → l.Sound
  known : ∀ c, r.registry.knows c = true → r.Serves c

theorem orderly_start (o : Options) (ids : IdSource) : (start o ids).Orderly where
  registry := ⟨List.nodup_nil, List.nodup_nil, fun p hp => by cases hp⟩
  links c l h := by cases h
  known c h := by cases h

theorem Confined.sound (h : Confined c f reg r x) (hlinks : ∀ d l, r.link? d = some l → l.Sound)
    (hf : ∀ l, r.link? c = some l → (f l).Sound) : ∀ d l, x.1.link? d = some l → l.Sound := by
  intro d l hl
  by_cases hd : d = c
  · subst hd
    rw [h.own] at hl
    obtain ⟨k, hk, rfl⟩ := Option.map_eq_some_iff.mp hl
    exact hf k hk
  · rw [h.others d hd] at hl
    exact hlinks d l hl

theorem Confined.holds {P : Link → Prop} (h : Confined c f reg r x)
    (hf : ∀ l, r.link? c = some l → P l → d = c → P (f l))
    (hd : ∃ l, r.link? d = some l ∧ P l) : ∃ l, x.1.link? d = some l ∧ P l := by
  obtain ⟨l, hl, hp⟩ := hd
  by_cases hdc : d = c
  · subst hdc
    refine ⟨f l, ?_, hf l hl hp rfl⟩
    rw [h.own, hl]
    rfl
  · exact ⟨l, (h.others d hdc).trans hl, hp⟩

theorem Confined.serves (h : Confined c f reg r x)
    (hf : ∀ l, r.link? c = some l → l.stage ≠ .finished → d = c → (f l).stage ≠ .finished)
    (hd : r.Serves d) : x.1.Serves d :=
  h.holds hf hd

/-- What changes the writer's side of links only, and remembers no other connections,
keeps a server orderly. -/
theorem Orderly.of_aside (h : r.Orderly) (hc : Confined c f reg r x) (hreg : reg.Orderly)
    (hknows : ∀ d, reg.knows d = true → r.Serves d)
    (hf : ∀ l, r.link? c = some l → (f l).Sound ∧ (f l).stage = l.stage) : x.1.Orderly where
  registry := hc.registry ▸ hreg
  links := hc.sound h.links fun l hl => (hf l hl).1
  known d hd := hc.serves (fun l hl hs _ => (hf l hl).2 ▸ hs) (hknows d (hc.registry ▸ hd))

theorem Orderly.moves {e : LinkEvent} {l : Link} {r' : Run} (h : r.Orderly)
    (hl : r.link? c = some l)
    (hc : Confined c (fun _ => (l.step e).1) (remembered r.registry c l (l.step e).1) r (r', [])) :
    r'.Orderly := by
  have hregistry := hc.registry
  have hsound := hc.sound h.links fun _ _ => (h.links c l hl).move (Link.move l e)
  -- a connection that finishes now is forgotten, and no other is
  unfold remembered at hregistry
  split at hregistry
  · refine ⟨hregistry ▸ h.registry.forget c, hsound, ?_⟩
    intro d hd
    rw [hregistry] at hd
    obtain ⟨hdc, hknown⟩ := Registry.knows_forget hd
    exact hc.serves (fun _ _ _ hd => absurd hd hdc) (h.known d hknown)
  · rename_i hgoes
    refine ⟨hregistry ▸ h.registry, hsound, ?_⟩
    intro d hd
    refine hc.serves (fun k hk hs _ hfinished => ?_) (h.known d (hregistry ▸ hd))
    rw [hl] at hk
    cases hk
    exact hgoes ⟨hs, hfinished⟩

theorem Orderly.connects (h : r.Orderly) (peer : Option String) : (r.connect peer).Orderly where
  registry := h.registry
  links d l hl := by
    rw [link?_connect] at hl
    rcases Option.or_eq_some_iff.mp hl with hl | ⟨-, hl⟩
    · exact h.links d l hl
    · split at hl
      · cases hl
        exact Link.sound_start
      · cases hl
  known d hd := by
    obtain ⟨l, hl, hs⟩ := h.known d hd
    refine ⟨l, ?_, hs⟩
    rw [link?_connect, hl, Option.some_or]

theorem Orderly.handles {bind : Binder} {l l' : Link} {m : Message} (h : r.Orderly)
    (hl : r.link? c = some l) (htake : l.take? = some (m, l'))
    (hc : Confined c (fun _ => Action.allOnLink l' (react r.options a bind r.now r.registry c m).2)
      (react r.options a bind r.now r.registry c m).1 r x) : x.1.Orderly := by
  have hrecorded := recorded_react r.options a bind r.now r.registry c m
  apply h.of_aside hc (hrecorded.orderly h.registry)
  · intro d hd
    rcases hrecorded.knows hd with rfl | hd
    · -- whose message is handled has an open link
      have hopen := Link.stage_of_take? (h.links d l hl) htake
      exact ⟨l, hl, by simp [hopen]⟩
    · exact h.known d hd
  · intro k hk
    rw [hl] at hk
    cases hk
    have hsound := Link.sound_take? (h.links c l hl) htake
    have haside := Action.aside_allOnLink (react r.options a bind r.now r.registry c m).2 l'
    obtain ⟨-, hl'⟩ := Link.take?_eq_some htake
    refine ⟨hsound.aside haside, haside.stage.trans ?_⟩
    rw [hl']

theorem Orderly.turn (h : r.Orderly) (ht : Turn a r e x) : x.1.Orderly := by
  cases ht with
  | connects peer => exact h.connects peer
  | rests _ _ _ hc =>
    apply h.of_aside (hc ⟨0⟩) h.registry h.known
    intro l hl
    exact ⟨h.links _ l hl, rfl⟩
  | moves c e l r' hl hc => exact h.moves hl hc
  | handles c bind l l' m _ hl htake hc => exact h.handles hl htake hc
  | announces _ c sessions _ _ hc =>
    apply h.of_aside hc h.registry h.known
    intro l hl
    have haside := Link.aside_emitAll (announcements sessions) l
    exact ⟨(h.links c l hl).aside haside, haside.stage⟩

theorem Turn.options (h : Turn a r e x) : x.1.options = r.options := by
  cases h with
  | connects peer => rfl
  | rests _ _ _ hc => exact (hc ⟨0⟩).options
  | moves c e l r' _ hc => exact hc.options
  | handles c bind l l' m _ _ _ hc => exact hc.options
  | announces _ c sessions _ _ hc => exact hc.options

theorem orderly {o : Options} {ids : IdSource} (course : Course (step a) (start o ids)) :
    ∀ n, (course.state n).Orderly :=
  course.always (orderly_start o ids) fun r e h => h.turn (turn a r e)

/-! ## Who has gone -/

/-- A connection has finished. -/
def Finished (r : Run) (c : ConnId) : Prop := ∃ l, r.link? c = some l ∧ l.stage = .finished

theorem not_serves_of_finished (h : r.Finished c) : ¬ r.Serves c := by
  rintro ⟨l, hl, hs⟩
  obtain ⟨k, hk, hfinished⟩ := h
  rw [hl] at hk
  cases hk
  exact hs hfinished

theorem Orderly.unknown (h : r.Orderly) (hc : r.Finished c) :
    r.registry.isAuthenticated c = false ∧ r.registry.owns c = false := by
  have hunknown : r.registry.knows c = false := by
    rw [Bool.eq_false_iff]
    exact fun hknows => not_serves_of_finished hc (h.known c hknows)
  simpa [Registry.knows] using hunknown

/-- What is said of the link of a connection goes on to hold if it is kept by what happens on
the link, when a message is taken, and by what is done on the writer's side. -/
theorem Turn.holds {P : Link → Prop} (h : Turn a r e x) (hmove : ∀ l y, P l → P (l.step y).1)
    (htake : ∀ l l' m, l.take? = some (m, l') → P l → P l')
    (haside : ∀ l l', l.Aside l' → P l → P l') (hd : ∃ l, r.link? d = some l ∧ P l) :
    ∃ l, x.1.link? d = some l ∧ P l := by
  cases h with
  | connects peer =>
    obtain ⟨l, hl, hp⟩ := hd
    exact ⟨l, by rw [link?_connect, hl, Option.some_or], hp⟩
  | rests _ _ _ hc => exact (hc d).holds (fun _ _ hp _ => hp) hd
  | moves c y l r' hl hc =>
    refine hc.holds (fun k hk hp _ => ?_) hd
    rw [hl] at hk
    cases hk
    exact hmove l y hp
  | handles c bind l rest m _ hl ht hc =>
    refine hc.holds (fun k hk hp _ => ?_) hd
    rw [hl] at hk
    cases hk
    exact haside rest _ (Action.aside_allOnLink _ rest) (htake l rest m ht hp)
  | announces _ c sessions _ _ hc =>
    exact hc.holds (fun l _ hp _ => haside l _ (Link.aside_emitAll _ l) hp) hd

theorem Turn.finished (h : Turn a r e x) (hd : r.Finished d) : x.1.Finished d := by
  refine h.holds (fun l y hs => Link.finished_move hs (Link.move l y)) ?_
    (fun l l' haside hs => haside.stage.trans hs) hd
  intro l l' m ht hs
  obtain ⟨-, hl'⟩ := Link.take?_eq_some ht
  rw [hl']
  exact hs

theorem Turn.present (h : Turn a r e x) {l : Link} (hl : r.link? d = some l) :
    ∃ l', x.1.link? d = some l' := by
  obtain ⟨l', hl', -⟩ := h.holds (P := fun _ => True) (fun _ _ _ => trivial)
    (fun _ _ _ _ _ => trivial) (fun _ _ _ _ => trivial) ⟨l, hl, trivial⟩
  exact ⟨l', hl'⟩

/-- What is remembered changes when a connection finishes and when a message is handled,
and then only. -/
theorem Turn.registry_cases (h : Turn a r e x) :
    x.1.registry = r.registry ∨
    (∃ c, x.1.Finished c ∧ x.1.registry = r.registry.forget c) ∨
    ∃ c bind l rest m, e = .handle c bind ∧ r.link? c = some l ∧ l.take? = some (m, rest) ∧
      Recorded r.options a bind r.now r.registry c m x.1.registry := by
  cases h with
  | connects peer => exact .inl rfl
  | rests _ _ _ hc => exact .inl (hc ⟨0⟩).registry
  | announces _ c sessions _ _ hc => exact .inl hc.registry
  | moves c e l r' hl hc =>
    have hregistry := hc.registry
    unfold remembered at hregistry
    split at hregistry
    · rename_i hfinish
      refine .inr (.inl ⟨c, ⟨(l.step e).1, ?_, hfinish.2⟩, hregistry⟩)
      rw [hc.own, hl]
      rfl
    · exact .inl hregistry
  | handles c bind l rest m _ hl htake hc =>
    refine .inr (.inr ⟨c, bind, l, rest, m, rfl, hl, htake, ?_⟩)
    rw [hc.registry]
    exact recorded_react r.options a bind r.now r.registry c m

/-! ## Nothing of another connection -/

theorem Confined.apart (h : Confined c f reg r x) (hd : d ≠ c)
    (hreg : reg.isAuthenticated d = r.registry.isAuthenticated d ∧
      reg.ownedBy d = r.registry.ownedBy d) :
    x.1.registry.isAuthenticated d = r.registry.isAuthenticated d ∧
      x.1.registry.ownedBy d = r.registry.ownedBy d ∧ x.1.proxy? d = r.proxy? d := by
  rw [h.registry]
  exact ⟨hreg.1, hreg.2, h.proxies d hd⟩

theorem Turn.apart (h : Turn a r e x) (hd : e.about? ≠ some d) :
    x.1.registry.isAuthenticated d = r.registry.isAuthenticated d ∧
      x.1.registry.ownedBy d = r.registry.ownedBy d ∧ x.1.proxy? d = r.proxy? d := by
  cases h with
  | connects peer => exact ⟨rfl, rfl, rfl⟩
  | rests _ _ _ hc =>
    -- what rests is confined to any connection, so to one that is not this
    have hother : d ≠ ⟨d.number + 1⟩ := fun h => by
      have := congrArg ConnId.number h
      simp at this
    exact (hc ⟨d.number + 1⟩).apart hother ⟨rfl, rfl⟩
  | moves c e l r' hl hc =>
    have hdc : d ≠ c := fun h => hd (h ▸ rfl)
    apply hc.apart hdc
    unfold remembered
    split
    · exact ⟨Registry.isAuthenticated_forget hdc, Registry.ownedBy_forget hdc⟩
    · exact ⟨rfl, rfl⟩
  | handles c bind l l' m _ hl htake hc =>
    have hdc : d ≠ c := fun h => hd (h ▸ rfl)
    exact hc.apart hdc ((recorded_react r.options a bind r.now r.registry c m).apart hdc)
  | announces _ c sessions _ he hc =>
    have hdc : d ≠ c := fun h => hd (h ▸ Event.about?_of_ofProxy? he)
    exact hc.apart hdc ⟨rfl, rfl⟩

end Run

end ReverseTunnel.Server
