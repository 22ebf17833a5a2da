import ReverseTunnel.Text.Blank

/-!
What a control server is told when it is started.
-/

namespace ReverseTunnel.Server

/-- The options of a server; delays are in milliseconds. -/
structure Options where
  listenAddr : String
  /-- A blank token admits everyone. -/
  authToken : String
  secret : String
  /-- The key of sealed requests; an empty one stands for the secret. -/
  key : String
  judgeDelay : Nat
  heartbeatDelay : Nat
  unboundTtl : Nat
  /-- Whether a request may name the host to listen on. -/
  allowHostOverride : Bool
  defaultBindHost : String
  closeOnAuthFailure : Bool
  deriving DecidableEq, Repr

namespace Options

/-- The options in force: without a host to listen on, every interface is. -/
def normalize (o : Options) : Options :=
  if Text.isBlankText o.defaultBindHost then { o with defaultBindHost := "0.0.0.0" } else o

/-- The key text under which requests are sealed. -/
def sealKey (o : Options) : String := if o.key = "" then o.secret else o.key

/-- Whether a token is accepted. -/
def admits (o : Options) (token : String) : Bool :=
  Text.isBlankText o.authToken || token == o.authToken

end Options

end ReverseTunnel.Server
