import EchProxy.Base
import EchProxy.Framework.Checked
import EchProxy.Framework.Str

/-! # The DNS Query (`build_https_query` in `client/src/ech_tls.rs`)

    One question of type HTTPS for the name, label by label.
-/

namespace EchProxy

namespace Ech

open Checked

/-- `u16::to_be_bytes`. -/
def toBeBytes (n : UInt16) : Bytes := [UInt8.ofNat (n.toNat / 256), UInt8.ofNat n.toNat]

/-- The header: the id, the flags (recursion desired) and the four counts. -/
def queryHeader : Bytes :=
  toBeBytes 0x4543 ++ toBeBytes 0x0100 ++ toBeBytes 1 ++ toBeBytes 0 ++ toBeBytes 0 ++ toBeBytes 0

/-- The `for` loop over the labels. -/
def encodeLabels : List Text → Eval Bytes
  | [] => return []
  | label :: labels =>
    if label = [] ∨ Text.len label > 63 then bail "invalid ECH DNS label" else do
    let rest ← encodeLabels labels
    return UInt8.ofNat (Text.len label) :: Text.asBytes label ++ rest

def buildHttpsQuery (name : Text) : Eval Bytes :=
  if name = [] ∨ Text.len name > 253 then bail "invalid ECH DNS name" else do
  let labels ← encodeLabels (Str.split '.' (Str.trimEndMatches '.' name))
  return queryHeader ++ labels ++ [0] ++ toBeBytes 65 ++ toBeBytes 1

end Ech

end EchProxy
