import EchProxy.Base
import EchProxy.Framework.Checked

/-! # The DNS Response Parser (`parse_https_response_for_ech` in
    `client/src/ech_tls.rs`)

    The offset is a `usize` the helpers move on; here each returns the new one
    with its value.  The raw operations of the code (indexing, slicing, the
    unchecked `+` and `-`) are those of `Checked`, so every panic the code
    could run into is a result of the model.
-/

namespace EchProxy

namespace Ech

open Checked

variable {w : Width}

/-! ## Readers -/

/-- `u16::from_be_bytes`. -/
def be16 (b₀ b₁ : UInt8) : Nat := b₀.toNat * 256 + b₁.toNat

/-- `u32::from_be_bytes`. -/
def be32 (b₀ b₁ b₂ b₃ : UInt8) : Nat := be16 b₀ b₁ * 65536 + be16 b₂ b₃

def readU16 (message : Slice w) (offset : Nat) : Eval Nat := do
  let stop ← context "offset overflow" (checkedAdd w offset 2)
  let bytes ← context "truncated DNS u16 field" (getRange message.data offset stop)
  return be16 (← index bytes 0) (← index bytes 1)

def readU16At (message : Slice w) (offset : Nat) : Eval (Nat × Nat) := do
  let value ← readU16 message offset
  return (value, ← add w offset 2)

def readU32At (message : Slice w) (offset : Nat) : Eval (Nat × Nat) := do
  let stop ← context "offset overflow" (checkedAdd w offset 4)
  let bytes ← context "truncated DNS u32 field" (getRange message.data offset stop)
  return (be32 (← index bytes 0) (← index bytes 1) (← index bytes 2) (← index bytes 3), stop)

def skipBytes (message : Slice w) (offset count : Nat) : Eval Nat := do
  let stop ← context "offset overflow" (checkedAdd w offset count)
  if stop > message.data.length then bail "truncated DNS message" else return stop

/-! ## Names -/

/-- The loop of `skip_name_inner`, from position `pos`. -/
def skipNameLoop (message : Slice w) (stop : Nat) : Nat → Nat → Eval Nat
  | 0, _ => .error .diverged
  | fuel + 1, pos =>
    if pos ≥ stop ∨ pos ≥ message.data.length then bail "truncated DNS name" else do
    let len ← index message.data pos
    if len &&& 0xc0 = 0xc0 then do
      let next ← add w pos 1
      if next ≥ stop ∨ next ≥ message.data.length then
        bail "truncated DNS compression pointer"
      else add w pos 2
    else if len &&& 0xc0 ≠ 0 then bail "unsupported DNS label type" else do
    let pos ← add w pos 1
    if len = 0 then return pos else do
    let pos ← context "DNS label length overflow" (checkedAdd w pos len.toNat)
    skipNameLoop message stop fuel pos

def skipNameInner (message : Slice w) (offset stop : Nat) : Eval Nat :=
  skipNameLoop message stop (message.data.length + 1) offset

def skipName (message : Slice w) (offset : Nat) : Eval Nat :=
  skipNameInner message offset message.data.length

def skipNameBounded (message : Slice w) (offset stop : Nat) : Eval Nat :=
  skipNameInner message offset stop

/-! ## The RDATA of an HTTPS record -/

/-- The `while` loop of `parse_https_rdata_for_ech`. -/
def paramsLoop (message : Slice w) (stop : Nat) : Nat → Nat → Eval (Option Bytes)
  | 0, _ => .error .diverged
  | fuel + 1, offset =>
    if offset < stop then do
      if (← sub stop offset) < 4 then bail "truncated SVCB parameter" else do
      let (key, offset) ← readU16At message offset
      let (len, offset) ← readU16At message offset
      let valueEnd ← context "SVCB parameter length overflow" (checkedAdd w offset len)
      if valueEnd > stop then bail "SVCB parameter exceeds RDATA length" else
      if key = 5 then return some (← slice message.data offset valueEnd)
      else paramsLoop message stop fuel valueEnd
    else return none

def parseHttpsRdataForEch (message : Slice w) (offset stop : Nat) : Eval (Option Bytes) := do
  let offset ← skipBytes message offset 2
  let offset ← skipNameBounded message offset stop
  paramsLoop message stop (message.data.length + 1) offset

/-! ## The sections -/

/-- `DEFAULT_ECH_CACHE_TTL`, in seconds. -/
def defaultEchCacheTtl : Nat := 300

/-- The record type HTTPS. -/
def httpsType : Nat := 65

/-- The `for` loop over the questions. -/
def skipQuestions (message : Slice w) : Nat → Nat → Eval Nat
  | 0, offset => return offset
  | n + 1, offset => do
    let offset ← skipName message offset
    let offset ← skipBytes message offset 4
    skipQuestions message n offset

/-- What the loop over the answers learns about one before it looks at the
    type. -/
structure Answer where
  rrType : Nat
  ttl : Nat
  rdataStart : Nat
  rdataEnd : Nat
  deriving DecidableEq

/-- The fields of an answer, up to its RDATA. -/
def readAnswer (message : Slice w) (offset : Nat) : Eval Answer := do
  let offset ← skipName message offset
  let (rrType, offset) ← readU16At message offset
  let (_, offset) ← readU16At message offset
  let (ttl, offset) ← readU32At message offset
  let (rdlen, offset) ← readU16At message offset
  let rdataEnd ← context "DNS RDATA length overflow" (checkedAdd w offset rdlen)
  if rdataEnd > message.data.length then bail "DNS RDATA exceeds message length"
  else return ⟨rrType, ttl, offset, rdataEnd⟩

/-- The `for` loop over the answers. -/
def searchAnswers (message : Slice w) : Nat → Nat → Eval (Bytes × Nat)
  | 0, _ => bail "HTTPS response did not contain an ech SVCB parameter"
  | n + 1, offset => do
    let answer ← readAnswer message offset
    if answer.rrType = httpsType then do
      match ← parseHttpsRdataForEch message answer.rdataStart answer.rdataEnd with
      | some ech => return (ech, if answer.ttl = 0 then defaultEchCacheTtl else answer.ttl)
      | none => searchAnswers message n answer.rdataEnd
    else searchAnswers message n answer.rdataEnd

/-- `parse_https_response_for_ech`; the TTL is in seconds. -/
def parseHttpsResponseForEch (message : Slice w) : Eval (Bytes × Nat) :=
  if message.data.length < 12 then bail "DNS response is too short" else do
  let flags ← readU16 message 2
  if flags &&& 0x8000 = 0 then bail "DNS message is not a response" else
  if flags &&& 0x000f ≠ 0 then bail s!"DNS response returned rcode {flags &&& 0x000f}" else do
  let qdcount ← readU16 message 4
  let ancount ← readU16 message 6
  let offset ← skipQuestions message qdcount 12
  searchAnswers message ancount offset

end Ech

end EchProxy
