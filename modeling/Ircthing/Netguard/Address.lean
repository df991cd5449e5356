/-
This file models the addresses of the network guard: `net.ParseIP` and the policy that decides which
addresses may be dialed. An address is its 128 bits; those of IPv4 are the mapped ones.
-/

import Ircthing.Golang.Strconv

namespace Ircthing.Netguard

/-- A `net.IP` of sixteen bytes. -/
abbrev Ip := BitVec 128

def Ip.ofBytes (bytes : Bytes) : Ip :=
  bytes.foldl (fun value byte => value <<< 8 ||| BitVec.ofNat 128 byte.toNat) 0

/-! ### Parsing -/

def parseOctet (part : Bytes) : Option UInt8 :=
  if part = [] ∨ (part.head? = some 0x30 ∧ part ≠ [0x30]) then none
  else ((decimalDigits part).filter (· ≤ 255)).map Nat.toUInt8

variable (text : Bytes)

def parseIPv4Fields : Option Bytes :=
  let parts := splitByte 0x2E text
  if parts.length = 4 then parts.mapM parseOctet else none

def hexDigit (byte : UInt8) : Option Nat :=
  if inRange 0x30 0x39 byte then some (byte.toNat - 0x30)
  else if inRange 0x61 0x66 byte then some (byte.toNat - 0x61 + 10)
  else if inRange 0x41 0x46 byte then some (byte.toNat - 0x41 + 10)
  else none

def hextet (digits : Bytes) : Bytes :=
  let value := digits.foldl (fun value byte => value * 16 + (hexDigit byte).getD 0) 0
  [(value / 256).toUInt8, (value % 256).toUInt8]

/-- The loop of `parseIPv6`: the bytes read, and after how many the `::` stands. The fuel is the
number of groups still missing. -/
def parseIPv6Loop : Nat → Bytes → Bytes → Option Nat → Option (Bytes × Option Nat)
  | 0, text, ip, ellipsis => if text = [] then some (ip, ellipsis) else none
  | fuel + 1, text, ip, ellipsis =>
    let digits := text.takeWhile fun byte => (hexDigit byte).isSome
    let group := ip ++ hextet digits
    if digits = [] ∨ digits.length > 4 then none
    else
      match text.drop digits.length with
      | [] => some (group, ellipsis)
      | 0x2E :: _ =>
        if (ellipsis = none ∧ ip.length ≠ 12) ∨ ip.length + 4 > 16 then none
        else (parseIPv4Fields text).map fun tail => (ip ++ tail, ellipsis)
      | 0x3A :: 0x3A :: more =>
        if ellipsis.isSome then none
        else if more = [] then some (group, some group.length)
        else parseIPv6Loop fuel more group (some group.length)
      | [0x3A] => none
      | 0x3A :: more => parseIPv6Loop fuel more group ellipsis
      | _ => none

/-- The end of `parseIPv6`: a `::` stands for at least one group of zeros. -/
def expandEllipsis : Bytes × Option Nat → Option Bytes
  | (ip, none) => if ip.length < 16 then none else some ip
  | (ip, some position) =>
    if ip.length < 16 then
      some (ip.take position ++ List.replicate (16 - ip.length) 0 ++ ip.drop position)
    else none

def parseIPv6 : Option Bytes :=
  match text with
  | [0x3A, 0x3A] => some (List.replicate 16 0)
  | 0x3A :: 0x3A :: more => (parseIPv6Loop 8 more [] (some 0)).bind expandEllipsis
  | _ => (parseIPv6Loop 8 text [] none).bind expandEllipsis

def parseIP : Option Ip :=
  match text.find? fun byte => byte = 0x2E || byte = 0x3A || byte = 0x25 with
  | some 0x2E =>
    (parseIPv4Fields text).map fun tail =>
      .ofBytes (List.replicate 10 0 ++ [0xFF, 0xFF] ++ tail)
  | some 0x3A => if text.contains 0x25 then none else (parseIPv6 text).map .ofBytes
  | _ => none

/-! ### The policy -/

def Ip.is4 (ip : Ip) : Bool := ip >>> 32 = 0xFFFF

/-- A `netip.Prefix` in its text form contains the address. A block of IPv4 contains only
addresses of IPv4, and one of IPv6 only others. -/
def Ip.within (ip : Ip) (block : String) : Bool :=
  let (base, bits, _) := cut (lit block) 0x2F
  match parseIP base, decimalDigits bits with
  | some base', some bits =>
    let v4 := base.contains 0x2E
    let shift := if v4 then 32 - bits else 128 - bits
    ip.is4 = v4 && ip >>> shift = base' >>> shift
  | _, _ => false

def specialPurposePrefixes : List String :=
  ["0.0.0.0/8", "192.0.0.0/24", "192.0.2.0/24", "198.51.100.0/24", "203.0.113.0/24",
    "192.31.196.0/24", "192.52.193.0/24", "192.88.99.0/24", "192.175.48.0/24", "100.64.0.0/10",
    "198.18.0.0/15", "240.0.0.0/4", "::/128", "::1/128", "::ffff:0:0/96", "::/96",
    "::ffff:0:0:0/96", "64:ff9b::/96", "64:ff9b:1::/48", "100::/64", "2001::/23",
    "2001:db8::/32", "2002::/16", "3fff::/20", "5f00::/16"]

/-- The blocks of the methods of `net.IP` that the policy asks: loopback, private, unspecified,
link-local and multicast. -/
def classifiedPrefixes : List String :=
  ["127.0.0.0/8", "::1/128", "10.0.0.0/8", "172.16.0.0/12", "192.168.0.0/16", "fc00::/7",
    "0.0.0.0/32", "::/128", "169.254.0.0/16", "fe80::/10", "224.0.0.0/4", "ff00::/8"]

def isPublicIP (ip : Ip) : Bool :=
  if classifiedPrefixes.any ip.within then false
  else if specialPurposePrefixes.any ip.within then false
  else if !ip.is4 && !ip.within "2000::/3" then false
  else true

end Ircthing.Netguard
