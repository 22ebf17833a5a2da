import ReverseTunnel.Proofs.Tunnel.NearEnd

/-!
The lines between server and client.

A line is made when the data connection of an attempt is, is let in by a proxy at most once,
gets a backend at most once, and is otherwise as it was (`lines_cases`). What has come out of
a line at either end is a prefix of what was put on it at the other (`Conducts`), for what
comes out is always the next of what is on the way.
-/

namespace ReverseTunnel

open Client (Attempt Loop LoopEffect)
open Session (ConnId)
open Traffic (sending arriving)

/-- What comes out next keeps what has come out a prefix of what was put on the line. -/
theorem Trail.sent_passage {tr : Trail} {put : Bytes} (h : tr.sent <+: put) (y : Passage) :
    (tr.receive (y.arrival (put.drop tr.sent.length))).sent <+: put := by
  cases y with
  | bytes n =>
    show (if tr.ended then tr else _).sent <+: put
    split
    · exact h
    · obtain ⟨rest, rfl⟩ := h
      rw [List.drop_left]
      exact (List.prefix_append_right_inj _).mpr (List.take_prefix n rest)
  | ended | gone | reset => exact h

/-- The connections that a line gets after it was made. -/
inductive Line.Later where
  | far
  | backend
  deriving DecidableEq, Repr

namespace Line

variable {l m l' : Line} {e e' : Later} {k : Nat}

def later? (l : Line) : Later → Option Nat
  | .far => l.far
  | .backend => l.backend

def give (l : Line) (k : Nat) : Later → Line
  | .far => { l with far := some k }
  | .backend => { l with backend := some k }

theorem near_give (l : Line) (k : Nat) (e : Later) : (l.give k e).near = l.near := by
  cases e <;> rfl

theorem later?_give (l : Line) (k : Nat) (e e' : Later) :
    (l.give k e).later? e' = if e' = e then some k else l.later? e' := by
  cases e <;> cases e' <;> rfl

/-- A line has the connections that it had. -/
structure Grows (l m : Line) : Prop where
  near : m.near = l.near
  later : ∀ e k, l.later? e = some k → m.later? e = some k

theorem Grows.refl (l : Line) : l.Grows l := ⟨rfl, fun _ _ h => h⟩

theorem Grows.trans (h : l.Grows m) (h' : m.Grows l') : l.Grows l' :=
  ⟨h'.near.trans h.near, fun e k hk => h'.later e k (h.later e k hk)⟩

theorem grows_give (hnone : l.later? e = none) (k : Nat) : l.Grows (l.give k e) := by
  refine ⟨near_give l k e, fun e' k' hk' => ?_⟩
  rw [later?_give, if_neg, hk']
  rintro rfl
  cases hnone.symm.trans hk'

theorem Grows.has (h : l.Grows m) (hk : l.Has k) : m.Has k :=
  hk.imp (fun hnear => hnear.trans h.near.symm) (h.later .backend k)

end Line

namespace Tunnel

variable {a : Seal.Aead} {x z : Tunnel} {p q : Attempt} {l m : Line} {e : Line.Later} {now key far : Nat}
  {b : Arrival}

/-! ## How lines come to be -/

/-- The number that a line gets next. -/
def next (x : Tunnel) : Line.Later → Nat
  | .far => x.nextInbound
  | .backend => x.nextOutbound

/-- What a step can make of the line of an attempt. -/
inductive LineStep (x : Tunnel) (p : Attempt) : Option Line → Prop
  | same : LineStep x p (x.lines p)
  /-- The data connection of the attempt was made. -/
  | made (hnone : x.lines p = none) : LineStep x p (some { near := x.nextOutbound })
  /-- A proxy has let it in, or its backend has accepted. -/
  | given {l : Line} (e : Line.Later) (hl : x.lines p = some l) (hnone : l.later? e = none) :
      LineStep x p (some (l.give (x.next e) e))

theorem lineStep_setLine (h : LineStep x p (some l)) (q : Attempt) :
    LineStep x q ((x.setLine p l).lines q) := by
  rw [lines_setLine]
  split
  · rename_i hq
    exact hq ▸ h
  · exact .same

theorem lines_cases (h : x.Kept) (e : Event) (p : Attempt) : LineStep x p ((x.step a e).1.lines p) := by
  cases e with
  | server e | visit owner | visitor key b =>
    rw [step]
    split <;> exact .same
  | client now e =>
    rw [step]
    split <;> exact .same
  | up q y =>
    rw [step]
    split
    · exact .same
    · split <;> exact .same
  | down now q y =>
    rw [step]
    split <;> exact .same
  | backend now q b =>
    rw [step]
    split <;> exact .same
  | call now q =>
    rw [step]
    split
    · rename_i hdials
      exact lineStep_setLine (.made (h.dialsData hdials).1) p
    · exact .same
  | letIn q owner =>
    rw [step]
    split
    · exact .same
    · rename_i l hl
      split
      · rename_i hlets
        exact lineStep_setLine (.given .far hl hlets.2) p
      · exact .same
  | answer now q =>
    rw [step]
    split
    · exact .same
    · rename_i l hl
      split
      · rename_i hdials
        exact lineStep_setLine (.given .backend hl (h.dialsLocal hl hdials).1) p
      · exact .same

theorem LineStep.before (h : LineStep x p (some m)) (hk : m.later? e = some key) :
    ∃ l, x.lines p = some l ∧ (l.later? e = some key ∨ l.later? e = none ∧ key = x.next e) := by
  generalize hline : some m = line at h
  cases h with
  | same => exact ⟨m, hline.symm, .inl hk⟩
  | made _ =>
    obtain rfl := Option.some.inj hline
    cases e <;> cases hk
  | @given l e' hl hnone =>
    obtain rfl := Option.some.inj hline
    refine ⟨l, hl, ?_⟩
    rw [Line.later?_give] at hk
    split at hk
    · rename_i he
      exact .inr ⟨he ▸ hnone, he ▸ (Option.some.inj hk).symm⟩
    · exact .inl hk

theorem LineStep.after {line : Option Line} (h : LineStep x p line) (hl : x.lines p = some l) :
    ∃ m, line = some m ∧ l.Grows m := by
  cases h with
  | same => exact ⟨l, hl, .refl l⟩
  | made hnone => cases hnone.symm.trans hl
  | given e hm hnone =>
    obtain rfl := Option.some.inj (hm.symm.trans hl)
    exact ⟨_, rfl, Line.grows_give hnone _⟩

theorem next_le_step (x : Tunnel) (y : Event) (e : Line.Later) : x.next e ≤ (x.step a y).1.next e := by
  have hself : x.nextInbound ≤ x.nextInbound ∧ x.nextOutbound ≤ x.nextOutbound :=
    ⟨Nat.le_refl _, Nat.le_refl _⟩
  have hin : x.nextInbound ≤ x.nextInbound + 1 ∧ x.nextOutbound ≤ x.nextOutbound :=
    ⟨Nat.le_succ _, Nat.le_refl _⟩
  have hout : x.nextInbound ≤ x.nextInbound ∧ x.nextOutbound ≤ x.nextOutbound + 1 :=
    ⟨Nat.le_refl _, Nat.le_succ _⟩
  have hle : x.nextInbound ≤ (x.step a y).1.nextInbound ∧ x.nextOutbound ≤ (x.step a y).1.nextOutbound := by
    cases y with
    | server _ | visitor _ _ | client _ _ | down _ _ _ | backend _ _ _ =>
      rw [step]
      split <;> exact hself
    | up _ _ =>
      rw [step]
      split
      · exact hself
      · split <;> exact hself
    | visit _ =>
      rw [step]
      split
      · exact hin
      · exact hself
    | call _ _ =>
      rw [step]
      split
      · exact hout
      · exact hself
    | letIn _ _ =>
      rw [step]
      split
      · exact hself
      · split
        · exact hin
        · exact hself
    | answer _ _ =>
      rw [step]
      split
      · exact hself
      · split
        · exact hout
        · exact hself
  cases e
  · exact hle.1
  · exact hle.2

/-! ## What lines conduct -/

/-- The connections that came in are told apart, and what has come out of a line is a prefix of
what was put on it. -/
structure Conducts (x : Tunnel) : Prop where
  fresh : ∀ k, x.nextInbound ≤ k → (x.inbound k).came = {}
  visitors : ∀ k ∈ x.visitors, k < x.nextInbound
  far : ∀ p l k, x.lines p = some l → l.far = some k → k < x.nextInbound ∧ k ∉ x.visitors
  apart : ∀ p q l m k, x.lines p = some l → x.lines q = some m → l.far = some k → m.far = some k → p = q
  up : ∀ p l k, x.lines p = some l → l.far = some k →
    (x.inbound k).came.sent <+: (x.outbound l.near).went
  down : ∀ p l, x.lines p = some l → (x.outbound l.near).came.sent <+: x.put l

theorem Conducts.onServer (h : x.Conducts) (y : Server.Run × List Server.Effect) :
    (x.onServer y).1.Conducts := by
  refine ⟨h.fresh, h.visitors, h.far, h.apart, h.up, fun p l hl => (h.down p l hl).trans ?_⟩
  unfold put
  split
  · exact List.nil_prefix
  · exact List.prefix_append _ _

theorem Conducts.onClient (h : x.Conducts) (y : Loop × List LoopEffect) : (x.onClient y).1.Conducts :=
  ⟨h.fresh, h.visitors, h.far, h.apart, fun p l k hl hk => (h.up p l k hl hk).trans (List.prefix_append _ _),
    h.down⟩

theorem Conducts.arrive (h : x.Conducts) (hkey : key < x.nextInbound)
    (hup : ∀ p l, x.lines p = some l → l.far = some key →
      ((x.inbound key).came.receive b).sent <+: (x.outbound l.near).went) :
    (x.arrive a key b).1.Conducts := by
  refine Conducts.onServer (x := { x with inbound := arriving x.inbound key b })
    ⟨fun k hk => ?_, h.visitors, h.far, h.apart, fun p l k hl hk => ?_, fun p l hl => ?_⟩ _
  · show (arriving x.inbound _ _ k).came = {}
    rw [Traffic.arriving_of_ne, h.fresh k hk]
    rintro rfl
    exact Nat.not_lt.mpr hk hkey
  · show (arriving x.inbound _ _ k).came.sent <+: _
    rw [Traffic.came_arriving]
    split
    · rename_i hsame
      subst hsame
      exact hup p l hl hk
    · exact h.up p l k hl hk
  · have hput : { x with inbound := arriving x.inbound key b }.put l = x.put l := by
      unfold put
      split
      · rfl
      · exact Traffic.went_arriving _ _ _ _
    rw [hput]
    exact h.down p l hl

theorem Conducts.up_step (h : x.Conducts) (hl : x.lines p = some l) (hfar : l.far = some far) (y : Passage) :
    (x.arrive a far (y.arrival (x.upward l.near far))).1.Conducts := by
  refine h.arrive (h.far p l far hl hfar).1 fun q m hm hk => ?_
  obtain rfl := h.apart q p m l far hm hl hk hfar
  obtain rfl : m = l := Option.some.inj (hm.symm.trans hl)
  exact Trail.sent_passage (h.up q m far hm hfar) y

theorem Conducts.visitor_step (h : x.Conducts) (hkey : key ∈ x.visitors) (b : Arrival) :
    (x.arrive a key b).1.Conducts :=
  h.arrive (h.visitors key hkey) fun q m hm hk => absurd hkey (h.far q m key hm hk).2

theorem Conducts.arriveAt (h : x.Conducts) (now : Nat) (p : Attempt)
    (hdown : ∀ q m, x.lines q = some m → m.near = key →
      ((x.outbound key).came.receive b).sent <+: x.put m) : (x.arriveAt a now p key b).1.Conducts := by
  refine Conducts.onClient (x := { x with outbound := arriving x.outbound key b })
    ⟨h.fresh, h.visitors, h.far, h.apart, fun q m k hm hk => ?_, fun q m hm => ?_⟩ _
  · show _ <+: (arriving x.outbound _ _ m.near).went
    rw [Traffic.went_arriving]
    exact h.up q m k hm hk
  · show (arriving x.outbound _ _ m.near).came.sent <+: x.put m
    rw [Traffic.came_arriving]
    split
    · rename_i hsame
      rw [hsame]
      exact hdown q m hm hsame
    · exact h.down q m hm

theorem Conducts.down_step (h : x.Conducts) (hkept : x.Kept) (hl : x.lines p = some l) (now : Nat)
    (y : Passage) : (x.arriveAt a now p l.near (y.arrival (x.downward l))).1.Conducts := by
  refine h.arriveAt now p fun q m hm hq => ?_
  obtain rfl := hkept.apart q p m l m.near hm hl (.inl rfl) (.inl hq)
  obtain rfl : m = l := Option.some.inj (hm.symm.trans hl)
  exact Trail.sent_passage (h.down q m hm) y

theorem Conducts.backend_step (h : x.Conducts) (hkept : x.Kept) (hl : x.lines p = some l)
    (hkey : l.backend = some key) (now : Nat) (b : Arrival) : (x.arriveAt a now p key b).1.Conducts := by
  refine h.arriveAt now p fun q m hm hq => ?_
  -- it is no data connection
  obtain rfl := hkept.apart q p m l key hm hl (.inl hq.symm) (.inr hkey)
  obtain rfl : m = l := Option.some.inj (hm.symm.trans hl)
  exact absurd (hq ▸ hkey) (hkept.split q m hm)

theorem Conducts.comeIn (h : x.Conducts) (owner : ConnId) : (x.comeIn a owner).1.Conducts := by
  have hcame := h.onServer (x.server.step a (.table owner (.accept x.nextInbound)))
  exact ⟨fun k hk => h.fresh k (Nat.le_of_succ_le hk), fun k hk => Nat.lt_succ_of_lt (h.visitors k hk),
    fun p l k hl hk => ⟨Nat.lt_succ_of_lt (h.far p l k hl hk).1, (h.far p l k hl hk).2⟩, h.apart, hcame.up,
    hcame.down⟩

/-- A line that is new or has got a connection conducts if nothing was lost on it. -/
theorem Conducts.setLine (h : x.Conducts)
    (hfar : ∀ k, l.far = some k → k < x.nextInbound ∧ k ∉ x.visitors ∧
      (∀ q m, q ≠ p → x.lines q = some m → m.far ≠ some k) ∧
      (x.inbound k).came.sent <+: (x.outbound l.near).went)
    (hdown : (x.outbound l.near).came.sent <+: x.put l) : (x.setLine p l).Conducts := by
  have hlines : ∀ {q m}, (x.setLine p l).lines q = some m →
      (q = p ∧ l = m) ∨ (q ≠ p ∧ x.lines q = some m) := by
    intro q m hm
    rw [lines_setLine] at hm
    split at hm
    · rename_i hq
      exact .inl ⟨hq, Option.some.inj hm⟩
    · rename_i hq
      exact .inr ⟨hq, hm⟩
  refine ⟨h.fresh, h.visitors, fun q m k hm hk => ?_, fun q r m m' k hm hm' hk hk' => ?_,
    fun q m k hm hk => ?_, fun q m hm => ?_⟩
  · rcases hlines hm with ⟨-, rfl⟩ | ⟨-, hm⟩
    · exact ⟨(hfar k hk).1, (hfar k hk).2.1⟩
    · exact h.far q m k hm hk
  · rcases hlines hm with ⟨hq, rfl⟩ | ⟨hq, hm⟩ <;> rcases hlines hm' with ⟨hr, rfl⟩ | ⟨hr, hm'⟩
    · exact hq.trans hr.symm
    · exact absurd hk' ((hfar k hk).2.2.1 r m' hr hm')
    · exact absurd hk ((hfar k hk').2.2.1 q m hq hm)
    · exact h.apart q r m m' k hm hm' hk hk'
  · rcases hlines hm with ⟨-, rfl⟩ | ⟨-, hm⟩
    · exact (hfar k hk).2.2.2
    · exact h.up q m k hm hk
  · rcases hlines hm with ⟨-, rfl⟩ | ⟨-, hm⟩
    · exact hdown
    · exact h.down q m hm

/-- A line that is let in has had nothing on it before. -/
theorem Conducts.letIn_step (h : x.Conducts) (hl : x.lines p = some l) (hnone : l.far = none)
    (owner : ConnId) :
    ((x.comeIn a owner).1.setLine p { l with far := some x.nextInbound }).Conducts := by
  refine (h.comeIn owner).setLine (fun k hk => ?_) ?_
  · obtain rfl := Option.some.inj hk
    refine ⟨Nat.lt_succ_self _, fun hk => Nat.lt_irrefl _ (h.visitors _ hk), fun q m _ hm hk => ?_, ?_⟩
    · exact Nat.lt_irrefl _ (h.far q m _ hm hk).1
    · show (x.inbound x.nextInbound).came.sent <+: _
      rw [h.fresh _ (Nat.le_refl _)]
      exact List.nil_prefix
  · have hdown := h.down p l hl
    rw [put, hnone] at hdown
    exact (List.prefix_nil.mp hdown) ▸ List.nil_prefix

theorem Conducts.call_step (h : x.Conducts) (hkept : x.Kept) (p : Attempt) (n : Nat) :
    ({ x with nextOutbound := n }.setLine p { near := x.nextOutbound }).Conducts := by
  refine Conducts.setLine ⟨h.fresh, h.visitors, h.far, h.apart, h.up, h.down⟩ nofun ?_
  show (x.outbound x.nextOutbound).came.sent <+: _
  rw [hkept.fresh _ (Nat.le_refl _)]
  exact List.nil_prefix

/-- A line that gets its backend conducts as before. -/
theorem Conducts.answer_step (h : x.Conducts) (hl : x.lines p = some l) (n : Nat) (backend : Option Nat) :
    ({ x with nextOutbound := n }.setLine p { l with backend }).Conducts := by
  refine Conducts.setLine ⟨h.fresh, h.visitors, h.far, h.apart, h.up, h.down⟩ (fun k hk => ?_) (h.down p l hl)
  exact ⟨(h.far p l k hl hk).1, (h.far p l k hl hk).2,
    fun q m hq hm hkm => hq (h.apart q p m l k hm hl hkm hk), h.up p l k hl hk⟩

theorem conducts_start (so : Server.Options) (first : UInt32) (co : Client.Options) :
    (start so first co).Conducts where
  fresh _ _ := rfl
  visitors := nofun
  far := nofun
  apart := nofun
  up := nofun
  down := nofun

/-- Whatever happens, lines conduct. -/
theorem conducts_step (h : x.Conducts) (hkept : x.Kept) (e : Event) : (x.step a e).1.Conducts := by
  cases e with
  | server e =>
    rw [step]
    split
    · exact h.onServer _
    · exact h
  | client now e =>
    rw [step]
    split
    · exact h.onClient _
    · exact h
  | visit owner =>
    rw [step]
    split
    · have hcame := h.comeIn (a := a) owner
      refine ⟨hcame.fresh, fun k hk => ?_, fun p l k hl hk => ?_, hcame.apart, hcame.up, hcame.down⟩
      · rcases List.mem_append.mp hk with hk | hk
        · exact hcame.visitors k hk
        · rw [List.mem_singleton.mp hk]
          exact Nat.lt_succ_self _
      · refine ⟨(hcame.far p l k hl hk).1, fun hmem => ?_⟩
        rcases List.mem_append.mp hmem with hmem | hmem
        · exact (hcame.far p l k hl hk).2 hmem
        · exact Nat.ne_of_lt (h.far p l k hl hk).1 (List.mem_singleton.mp hmem)
    · exact h
  | visitor key b =>
    rw [step]
    split
    · rename_i hkey
      exact h.visitor_step hkey b
    · exact h
  | call now p =>
    rw [step]
    split
    · exact (h.call_step hkept p _).onClient _
    · exact h
  | letIn p owner =>
    rw [step]
    split
    · exact h
    · rename_i l hl
      split
      · rename_i hlets
        exact h.letIn_step hl hlets.2 owner
      · exact h
  | up p y =>
    rw [step]
    split
    · exact h
    · rename_i l hl
      split
      · exact h
      · rename_i far hfar
        exact h.up_step hl hfar y
  | down now p y =>
    rw [step]
    split
    · exact h
    · rename_i l hl
      exact h.down_step hkept hl now y
  | answer now p =>
    rw [step]
    split
    · exact h
    · rename_i l hl
      split
      · exact (h.answer_step hl _ _).onClient _
      · exact h
  | backend now p b =>
    rw [step]
    split
    · exact h
    · rename_i key hkey
      obtain ⟨l, hl, hbackend⟩ := Option.bind_eq_some_iff.mp hkey
      exact h.backend_step hkept hl hbackend now b

/-! ## In a run -/

/-- A run of a server and a client from their start. -/
abbrev Run (a : Seal.Aead) (so : Server.Options) (first : UInt32) (co : Client.Options) :=
  Course (step a) (start so first co)

namespace Run

variable {so : Server.Options} {first : UInt32} {co : Client.Options} {r : Run a so first co} {k n : Nat}

theorem kept_and_conducts (r : Run a so first co) (n : Nat) : (r.state n).Kept ∧ (r.state n).Conducts :=
  r.always (P := fun x => x.Kept ∧ x.Conducts) ⟨kept_start so first co, conducts_start so first co⟩
    (fun _ e h => ⟨kept_step h.1 e, conducts_step h.2 h.1 e⟩) n

theorem kept (r : Run a so first co) (n : Nat) : (r.state n).Kept := (r.kept_and_conducts n).1

theorem conducts (r : Run a so first co) (n : Nat) : (r.state n).Conducts := (r.kept_and_conducts n).2

theorem lineStep (r : Run a so first co) (n : Nat) (p : Attempt) :
    LineStep (r.state n) p ((r.state (n + 1)).lines p) := lines_cases (r.kept n) (r.happens n) p

theorem next_le (hkn : k ≤ n) (e : Line.Later) : (r.state k).next e ≤ (r.state n).next e := by
  induction hkn with
  | refl => exact Nat.le_refl _
  | @step n _ ih => exact Nat.le_trans ih (next_le_step (r.state n) (r.happens n) e)

theorem line_after (hl : (r.state k).lines p = some l) (hkn : k ≤ n) :
    ∃ m, (r.state n).lines p = some m ∧ l.Grows m := by
  induction hkn with
  | refl => exact ⟨l, hl, .refl l⟩
  | @step n _ ih =>
    obtain ⟨m, hm, hgrows⟩ := ih
    obtain ⟨m', hm', hgrows'⟩ := (r.lineStep n p).after hm
    exact ⟨m', hm', hgrows.trans hgrows'⟩

/-- Before a line had a connection it had none of this kind, and nothing else had its number. -/
theorem later_before (hl : (r.state n).lines p = some l) (hkey : l.later? e = some key) (hkn : k ≤ n) :
    (∃ m, (r.state k).lines p = some m ∧ m.later? e = some key) ∨
      ((∀ m, (r.state k).lines p = some m → m.later? e = none) ∧ (r.state k).next e ≤ key) := by
  induction hkn generalizing l with
  | refl => exact .inl ⟨l, hl, hkey⟩
  | @step n hkn ih =>
    have hstep := r.lineStep n p
    rw [hl] at hstep
    obtain ⟨l₁, hl₁, hkey₁ | ⟨hnone, rfl⟩⟩ := hstep.before hkey
    · exact ih hl₁ hkey₁
    · refine .inr ⟨fun m hm => ?_, next_le hkn e⟩
      obtain ⟨m', hm', hgrows⟩ := line_after hm hkn
      obtain rfl := Option.some.inj (hl₁.symm.trans hm')
      cases hlater : m.later? e with
      | none => rfl
      | some k => cases (hgrows.later e k hlater).symm.trans hnone

/-- At every moment a line has a connection that it has at any, or none of this kind yet. -/
theorem later_at (hl : (r.state k).lines p = some l) (hkey : l.later? e = some key) (n : Nat) :
    (∃ m, (r.state n).lines p = some m ∧ m.later? e = some key) ∨
      ((∀ m, (r.state n).lines p = some m → m.later? e = none) ∧ (r.state n).next e ≤ key) := by
  rcases Nat.le_total k n with hkn | hnk
  · obtain ⟨m, hm, hgrows⟩ := line_after hl hkn
    exact .inl ⟨m, hm, hgrows.later e key hkey⟩
  · exact later_before hl hkey hnk

/-- A line has one connection of each kind. -/
theorem later_unique (hl : (r.state k).lines p = some l) (hm : (r.state n).lines p = some m) {key' : Nat}
    (hkey : l.later? e = some key) (hkey' : m.later? e = some key') : key = key' := by
  obtain ⟨l₁, hl₁, hgrows⟩ := line_after hl (Nat.le_max_left k n)
  obtain ⟨l₂, hl₂, hgrows'⟩ := line_after hm (Nat.le_max_right k n)
  obtain rfl := Option.some.inj (hl₁.symm.trans hl₂)
  exact Option.some.inj ((hgrows.later e key hkey).symm.trans (hgrows'.later e key' hkey'))

theorem near_unique (hl : (r.state k).lines p = some l) (hm : (r.state n).lines q = some m)
    (hkey : l.Has key) (hkey' : m.Has key) : p = q := by
  obtain ⟨l₁, hl₁, hgrows⟩ := line_after hl (Nat.le_max_left k n)
  obtain ⟨l₂, hl₂, hgrows'⟩ := line_after hm (Nat.le_max_right k n)
  exact (r.kept _).apart p q l₁ l₂ key hl₁ hl₂ (hgrows.has hkey) (hgrows'.has hkey')

theorem far_unique (hl : (r.state k).lines p = some l) (hm : (r.state n).lines q = some m)
    (hfar : l.far = some far) (hfar' : m.far = some far) : p = q := by
  obtain ⟨l₁, hl₁, hgrows⟩ := line_after hl (Nat.le_max_left k n)
  obtain ⟨l₂, hl₂, hgrows'⟩ := line_after hm (Nat.le_max_right k n)
  exact (r.conducts _).apart p q l₁ l₂ far hl₁ hl₂ (hgrows.later .far far hfar) (hgrows'.later .far far hfar')

end Run

end Tunnel

end ReverseTunnel
