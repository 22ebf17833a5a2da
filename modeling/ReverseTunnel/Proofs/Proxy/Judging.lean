import ReverseTunnel.Proofs.Session.Handshake
import ReverseTunnel.Proxy.Judge

/-!
Judging loses nothing.

A look at a connection moves bytes from what is unread to what was read and changes
nothing else. A judgement accounts for everything read: a user keeps all of it, and
of a data connection it is the handshake and what came behind it.
-/

namespace ReverseTunnel.Proxy

open Session

/-- A connection from which more was read: what was read and what is unread make up
the same bytes, and the connection is in the same condition. -/
structure ReadOn (buffer : Bytes) (s : Socket) (seen : Bytes) (s' : Socket) : Prop where
  bytes : seen ++ s'.unread = buffer ++ s.unread
  ended : s'.remoteEnded = s.remoteEnded
  gone : s'.remoteGone = s.remoteGone
  broken : s'.broken = s.broken

theorem ReadOn.rfl {buffer : Bytes} {s : Socket} : ReadOn buffer s buffer s :=
  ⟨Eq.refl _, Eq.refl _, Eq.refl _, Eq.refl _⟩

theorem readOn_look {buffer seen : Bytes} {s s' : Socket} {v : Option Judgement}
    (h : look buffer s = (v, seen, s')) : ReadOn buffer s seen s' := by
  unfold look at h
  simp only at h
  split at h <;> simp only [Prod.mk.injEq] at h <;> obtain ⟨-, rfl, rfl⟩ := h <;>
    exact ⟨by simp, Eq.refl _, Eq.refl _, Eq.refl _⟩

/-- What a judgement says about the bytes read. -/
def Judgement.Accounts (seen : Bytes) : Judgement → Prop
  | .user buffered => buffered = seen
  | .data session rest => seen = Handshake.encode session ++ rest
  | .closed => True

theorem accounts_of_judgement {seen : Bytes} {v : Judgement} (h : judgement? seen = some v) :
    v.Accounts seen := by
  unfold judgement? at h
  split at h
  · cases h
  · simp only [Option.some.injEq] at h
    subst h
    rfl
  · rename_i session hs
    simp only [Option.some.injEq] at h
    subst h
    exact Handshake.eq_encode_append_of_inspect hs

theorem accounts_of_look {buffer seen : Bytes} {s s' : Socket} {v : Judgement}
    (h : look buffer s = (some v, seen, s')) : v.Accounts seen := by
  unfold look at h
  simp only at h
  split at h
  · rename_i w hw
    simp only [Prod.mk.injEq, Option.some.injEq] at h
    obtain ⟨rfl, rfl, -⟩ := h
    exact accounts_of_judgement hw
  · simp only [Prod.mk.injEq] at h
    obtain ⟨hc, -, -⟩ := h
    split at hc
    · simp only [Option.some.injEq] at hc
      subst hc
      trivial
    · cases hc

/-- A look reads a whole handshake at once if it is there. -/
theorem encode_prefix_of_look {session : UInt32} {buffer : Bytes} {s : Socket}
    (h : Handshake.encode session <+: buffer ++ s.unread) :
    Handshake.encode session <+: buffer ++ s.unread.take (judgedLimit - buffer.length) := by
  have hlen : (Handshake.encode session).length = 8 := Handshake.length_encode session
  have hall : buffer ++ s.unread.take (judgedLimit - buffer.length) <+: buffer ++ s.unread :=
    (List.prefix_append_right_inj _).mpr (List.take_prefix _ _)
  apply List.prefix_of_prefix_length_le h hall
  have hle := h.length_le
  simp only [hlen, List.length_append, List.length_take, judgedLimit] at hle ⊢
  omega

theorem look_of_handshake {session : UInt32} {buffer : Bytes} {s : Socket}
    (h : Handshake.encode session <+: buffer ++ s.unread) :
    ∃ rest seen s', look buffer s = (some (.data session rest), seen, s') := by
  let seen := buffer ++ s.unread.take (judgedLimit - buffer.length)
  have hseen : Handshake.encode session <+: seen := encode_prefix_of_look h
  have hv : judgement? seen = some (.data session (seen.drop Handshake.length)) := by
    unfold judgement?
    rw [Handshake.inspect_eq_data_iff.mpr hseen]
  refine ⟨seen.drop Handshake.length, seen,
    { s with unread := s.unread.drop (judgedLimit - buffer.length) }, ?_⟩
  unfold look
  simp only [seen] at hv ⊢
  rw [hv]

end ReverseTunnel.Proxy
