/-
This file models which hosts a media fetch dials, and when the check made on a URL also holds of the
host that is dialed for it. The check reads the host as the URL spells it, but the connection goes
to what `net/http` makes of it, which for a host outside ASCII is its mapping under IDNA.
-/

import Ircthing.Netguard.Host

namespace Ircthing.Api

open Netguard List

/-! ### URLs and their checks -/

/-- What a fetch reads of a parsed URL: `Scheme`, `Host`, `Hostname()` and `Port()`. -/
structure Url where
  scheme : Bytes
  host : Bytes
  hostname : Bytes
  port : Bytes := []
deriving DecidableEq

/-- The part of `fetcher` that decides about hosts. -/
structure Fetcher where
  proxied : Bool
  allowIP : Ip → Bool

inductive FetchError where
  | badURL
  | blocked
  | blockedRedirect (host : Bytes)
  | redirectLoop
  | redirectScheme
deriving DecidableEq

def validMediaURL (u : Url) : Bool :=
  (u.scheme = lit "http" || u.scheme = lit "https") && u.hostname ≠ [] &&
    (u.port = [] || (atoi u.port).any fun port => 1 ≤ port && port ≤ 65535)

def maxVia : Nat := 5

section Fetch

variable (lowerRune : Nat → Nat) (f : Fetcher)

def Fetcher.hostAllowed (host : Bytes) : Bool :=
  hostAllowedBy lowerRune f.allowIP host

variable (parsed : Option Url)

/-- The admission of a parsed URL, which is the same in `get` and in `stream`; `none` is a text
that `url.Parse` refuses. -/
def Fetcher.admit : Except FetchError Url :=
  match parsed with
  | none => .error .badURL
  | some u =>
    if !validMediaURL u then .error .badURL
    else if f.proxied && !f.hostAllowed lowerRune u.hostname then .error .blocked
    else .ok u

/-- `checkRedirect`, with the number of requests made so far. -/
def Fetcher.checkRedirect (u : Url) (via : Nat) : Except FetchError Unit :=
  if via ≥ maxVia then .error .redirectLoop
  else if !validMediaURL u then .error .redirectScheme
  else if f.proxied && !f.hostAllowed lowerRune u.hostname then .error (.blockedRedirect u.host)
  else .ok ()

def Fetcher.requested (f : Fetcher) (via : Nat) (u : Url) : List Url → List Url
  | [] => [u]
  | next :: redirects =>
    match f.checkRedirect lowerRune next via with
    | .ok () => u :: f.requested (via + 1) next redirects
    | .error _ => [u]

def Fetcher.fetched (redirects : List Url) : List Url :=
  match f.admit lowerRune parsed with
  | .ok u => f.requested lowerRune 1 u redirects
  | .error _ => []

end Fetch

/-! ### The dialed host -/

/-- The host `net/http` dials for a URL: one in ASCII as it is, any other mapped by
`idna.Lookup.ToASCII`, or as it is when the mapping fails. -/
def dialHost (toASCII : Bytes → Option Bytes) (u : Url) : Bytes :=
  if isASCII u.hostname then u.hostname else (toASCII u.hostname).getD u.hostname

variable {lowerRune : Nat → Nat} {f : Fetcher} {u : Url} {parsed : Option Url}
  {redirects : List Url}

theorem admit_eq_ok (admitted : f.admit lowerRune parsed = .ok u) :
    f.proxied = true → f.hostAllowed lowerRune u.hostname = true := by
  unfold Fetcher.admit at admitted
  split at admitted
  · cases admitted
  split at admitted
  · cases admitted
  split at admitted
  · cases admitted
  next allowed =>
    obtain rfl := Except.ok.inj admitted
    intro proxied
    simpa [proxied] using allowed

theorem checkRedirect_eq_ok {via : Nat} (followed : f.checkRedirect lowerRune u via = .ok ())
    (proxied : f.proxied = true) : f.hostAllowed lowerRune u.hostname = true := by
  unfold Fetcher.checkRedirect at followed
  split at followed
  · cases followed
  split at followed
  · cases followed
  split at followed
  · cases followed
  next allowed =>
    simpa [proxied] using allowed

theorem requested_allowed (proxied : f.proxied = true) {via : Nat}
    (allowed : f.hostAllowed lowerRune u.hostname = true) :
    ∀ v ∈ f.requested lowerRune via u redirects, f.hostAllowed lowerRune v.hostname = true := by
  induction redirects generalizing via u with
  | nil =>
    intro v member
    rw [Fetcher.requested, mem_singleton] at member
    exact member ▸ allowed
  | cons _ _ hypothesis =>
    intro v member
    rw [Fetcher.requested] at member
    split at member
    next followed =>
      obtain rfl | later := mem_cons.mp member
      · exact allowed
      · exact hypothesis (checkRedirect_eq_ok followed proxied) v later
    · rw [mem_singleton] at member
      exact member ▸ allowed

theorem fetched_allowed (proxied : f.proxied = true) :
    ∀ v ∈ f.fetched lowerRune parsed redirects, f.hostAllowed lowerRune v.hostname = true := by
  rw [Fetcher.fetched]
  split
  next admitted =>
    exact requested_allowed proxied (admit_eq_ok admitted proxied)
  · exact nofun

theorem dialHost_allowed_iff {toASCII : Bytes → Option Bytes}
    (allowed : f.hostAllowed lowerRune u.hostname = true) :
    hostAllowedBy lowerRune f.allowIP (dialHost toASCII u) = true ↔
      isASCII u.hostname = true ∨ ∀ mapped, toASCII u.hostname = some mapped →
        Admissible lowerRune f.allowIP mapped := by
  rw [dialHost]
  split
  next ascii =>
    exact ⟨fun _ => .inl ascii, fun _ => allowed⟩
  next outside =>
    rw [or_iff_right outside]
    cases toASCII u.hostname with
    | none => exact ⟨fun _ mapped none => (by cases none), fun _ => allowed⟩
    | some mapped =>
      rw [Option.getD_some, hostAllowedBy_iff]
      exact ⟨fun rule other same => Option.some.inj same ▸ rule, fun rule => rule mapped rfl⟩

/-- On a fetch through a proxy or a tunnel, all dialed hosts satisfy the check exactly when every
requested URL has an ASCII hostname or one whose IDNA mapping fails, or is neither refused nor a
spelling of the local machine. -/
theorem dialed_hosts_allowed_iff (lowerRune : Nat → Nat) (toASCII : Bytes → Option Bytes)
    (f : Fetcher) (proxied : f.proxied = true) (parsed : Option Url) (redirects : List Url) :
    (∀ host ∈ (f.fetched lowerRune parsed redirects).map (dialHost toASCII),
        hostAllowedBy lowerRune f.allowIP host = true) ↔
      ∀ u ∈ f.fetched lowerRune parsed redirects,
        isASCII u.hostname = true ∨ ∀ mapped, toASCII u.hostname = some mapped →
          (∀ ip, parseIP (stripZone mapped) = some ip → f.allowIP ip = true) ∧
          (parseIP (stripZone mapped) = none →
            ¬ LocalSpelling (toLower lowerRune (trimSuffix (stripZone mapped) (lit ".")))) := by
  rw [forall_mem_map]
  refine forall₂_congr fun u requested => ?_
  rw [dialHost_allowed_iff (fetched_allowed proxied u requested)]
  refine or_congr_right (forall₂_congr fun mapped _ => ?_)
  exact ⟨fun rule => ⟨rule.literal, rule.named⟩, fun rule => ⟨rule.1, rule.2⟩⟩

/-! ### A disguised address -/

/-- The part of the IDNA lookup mapping that concerns fullwidth forms and ideographic full
stops; it fails on everything else outside ASCII. -/
def fullwidthToASCII (host : Bytes) : Option Bytes :=
  (runes host).mapM fun (rune, _) =>
    if rune < 0x80 then some (lowerByte rune.toUInt8)
    else if 0xFF01 ≤ rune ∧ rune ≤ 0xFF5E then some (lowerByte (rune - 0xFEE0).toUInt8)
    else if rune = 0x3002 ∨ rune = 0xFF61 then some 0x2E
    else none

def proxiedFetcher : Fetcher := ⟨true, isPublicIP⟩

def plainUrl (hostname : String) : Url :=
  { scheme := lit "http", host := lit hostname, hostname := lit hostname }

theorem dialed_hosts_allowed_iff_redirected :
    ((proxiedFetcher.fetched lowerASCII (some (plainUrl "a.test")) [plainUrl "ｂ.test"]).map
        (dialHost fullwidthToASCII)).all (hostAllowedBy lowerASCII isPublicIP) = true := by
  have urls : proxiedFetcher.fetched lowerASCII (some (plainUrl "a.test")) [plainUrl "ｂ.test"] =
    [plainUrl "a.test", plainUrl "ｂ.test"] := by decide +kernel
  refine all_eq_true.mpr ((dialed_hosts_allowed_iff lowerASCII fullwidthToASCII
    proxiedFetcher rfl _ _).mpr ?_)
  rw [urls, forall_mem_cons, forall_mem_singleton]
  refine ⟨.inl (by decide), .inr fun mapped maps => ?_⟩
  have target : fullwidthToASCII (plainUrl "ｂ.test").hostname = some (lit "b.test") := by
    decide +kernel
  obtain rfl := Option.some.inj (target.symm.trans maps)
  have rule : Admissible lowerASCII isPublicIP (lit "b.test") :=
    hostAllowedBy_iff.mp (by decide +kernel)
  exact ⟨rule.literal, rule.named⟩

/-- The fullwidth spelling of the loopback address passes the check, and the loopback address
is dialed. -/
theorem fullwidth_loopback_dialed :
    proxiedFetcher.fetched lowerASCII (some (plainUrl "１２７.0.0.1")) [] = [plainUrl "１２７.0.0.1"] ∧
      dialHost fullwidthToASCII (plainUrl "１２７.0.0.1") = lit "127.0.0.1" ∧
      hostAllowedBy lowerASCII isPublicIP (lit "127.0.0.1") = false := by
  decide +kernel

end Ircthing.Api
