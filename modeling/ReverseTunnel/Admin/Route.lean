import ReverseTunnel.Admin.Page

/-!
Answering requests to the admin interface.

Pages are read with GET; HEAD gives the answer to GET without its text. Any other
method on a page is refused, and any other path is not found. Every answer may be
read by every origin, and OPTIONS is answered at once, whatever the path, so that
browsers may ask from anywhere.
-/

namespace ReverseTunnel.Admin

structure Response where
  status : Nat
  /-- Names in lower case. -/
  headers : List (String × String)
  /-- The page whose text is sent, if any is. -/
  page : Option Page := none
  deriving DecidableEq, Repr

/-- The methods of a page. -/
def allowed : String × String := ("allow", "GET,HEAD")

/-- Every origin may read an answer. -/
def allowOrigin : String × String := ("access-control-allow-origin", "*")

/-- The headers of an answer that is not to OPTIONS. -/
def openHeaders : List (String × String) := [allowOrigin, ("access-control-expose-headers", "*")]

/-- The path of a request target: what stands before its query and its fragment. -/
def pathOf (target : String) : String :=
  String.ofList (target.toList.takeWhile fun c => c ≠ '?' ∧ c ≠ '#')

/-- The answer to a request. -/
def respond (v : View) (method target : String) : Response :=
  let page := v.page? (pathOf target)
  if method = "OPTIONS" then
    { status := 200
      headers := (if page.isSome then [allowed] else []) ++
        [allowOrigin, ("access-control-allow-methods", "*"), ("access-control-allow-headers", "*")] }
  else
    match page with
    | none => { status := 404, headers := openHeaders }
    | some p =>
      let shown := ("content-type", p.contentType) :: openHeaders
      if method = "GET" then { status := 200, headers := shown, page := some p }
      else if method = "HEAD" then { status := 200, headers := shown }
      else { status := 405, headers := allowed :: openHeaders }

end ReverseTunnel.Admin
