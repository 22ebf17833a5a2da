import ReverseTunnel.Session.Id

/-!
What a control server remembers across its connections: which of them are
authenticated, and the data proxies that are registered, each owned by one
connection and known by its name.
-/

namespace ReverseTunnel.Server

open Session (ConnId)

/-- The address that a listener got. -/
structure Bound where
  host : String
  port : UInt16
  deriving DecidableEq, Repr

structure Registration where
  owner : ConnId
  name : String
  bound : Bound
  startedAt : Nat
  deriving DecidableEq, Repr

/-- What a server remembers; the proxies in the order in which they were registered. -/
structure Registry where
  authenticated : List ConnId := []
  proxies : List Registration := []
  deriving DecidableEq, Repr

namespace Registry

def isAuthenticated (r : Registry) (c : ConnId) : Bool := r.authenticated.contains c

def authenticate (r : Registry) (c : ConnId) : Registry :=
  if r.isAuthenticated c then r else { r with authenticated := r.authenticated ++ [c] }

/-- A connection is not authenticated any more. -/
def dismiss (r : Registry) (c : ConnId) : Registry :=
  { r with authenticated := r.authenticated.filter (· ≠ c) }

def owns (r : Registry) (c : ConnId) : Bool := r.proxies.any (·.owner = c)

def isTaken (r : Registry) (name : String) : Bool := r.proxies.any (·.name = name)

def register (r : Registry) (p : Registration) : Registry := { r with proxies := r.proxies ++ [p] }

/-- A connection is forgotten, and its proxy with it. -/
def forget (r : Registry) (c : ConnId) : Registry :=
  { r.dismiss c with proxies := r.proxies.filter (·.owner ≠ c) }

theorem isAuthenticated_authenticate (r : Registry) (c d : ConnId) :
    (r.authenticate c).isAuthenticated d = (r.isAuthenticated d || d == c) := by
  unfold authenticate
  split
  · rename_i h
    by_cases hd : d = c
    · subst hd; simp [h]
    · simp [hd]
  · by_cases hd : d = c <;> simp [isAuthenticated, hd]

theorem isAuthenticated_dismiss (r : Registry) (c d : ConnId) :
    (r.dismiss c).isAuthenticated d = (r.isAuthenticated d && d != c) := by
  simp [isAuthenticated, dismiss]
  rw [Bool.eq_iff_iff]
  simp

end Registry

end ReverseTunnel.Server
