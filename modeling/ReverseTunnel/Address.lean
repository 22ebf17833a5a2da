import ReverseTunnel.Text.Blank

/-!
Network addresses as text.

`join` writes a host and a port as one address, with brackets around a host that
holds a colon; `hostOf` takes the host of an address; `normalizeBind` completes
the short form of a listening address.
-/

namespace ReverseTunnel.Address

/-- A listening address without its host listens on every interface. -/
def normalizeBind (addr : String) : String :=
  match Text.trimChars addr.toList with
  | ':' :: rest => String.ofList ("0.0.0.0:".toList ++ rest)
  | chars => String.ofList chars

/-- The characters of a host and a port as one address. -/
def joinChars (host : List Char) (port : UInt16) : List Char :=
  let host := Text.trimChars host
  let tail := ':' :: (toString port.toNat).toList
  if host.contains ':' && host.head? != some '[' then '[' :: host ++ ']' :: tail
  else host ++ tail

/-- A host and a port as one address; a host that holds a colon and is not yet in
brackets is put into them. -/
def join (host : String) (port : UInt16) : String :=
  String.ofList (joinChars host.toList port)

/-- The characters of the host of an address. -/
def hostChars (addr : List Char) : List Char :=
  match Text.trimChars addr with
  | '[' :: rest => rest.takeWhile (· != ']')
  | chars =>
    let before := (chars.reverse.dropWhile (· != ':')).drop 1 |>.reverse
    if chars.contains ':' && !before.contains ':' then before else chars

/-- The host of an address: what stands in its brackets, or before its colon if it
has exactly one, or the whole address. -/
def hostOf (addr : String) : String := String.ofList (hostChars addr.toList)

end ReverseTunnel.Address
