/-
This file models the value of the `sts` capability, IRCv3 strict transport security.
-/

import Ircthing.Golang.Strconv

namespace Ircthing.Irc

structure StsValue where
  port : Int := 0
  hasDuration : Bool := false
  duration : Int := 0
deriving DecidableEq

def maxSTSSeconds : Int := 100 * 365 * 24 * 60 * 60

/-- One round of the loop of `parseSTS`. Unknown keys and bad numbers leave the value as it
is. -/
def parseSTSToken (value : StsValue) (token : Bytes) : StsValue :=
  let (key, text, _) := cut token 0x3D
  if key = lit "port" then
    match atoi text with
    | some number => if 0 < number ∧ number ≤ 65535 then { value with port := number } else value
    | none => value
  else if key = lit "duration" then
    match atoi text with
    | some number =>
      if 0 ≤ number then
        { value with hasDuration := true, duration := min number maxSTSSeconds * 10 ^ 9 }
      else value
    | none => value
  else value

def parseSTS (value : Bytes) : StsValue := (splitByte 0x2C value).foldl parseSTSToken {}

structure StsValue.WellFormed (value : StsValue) : Prop where
  port : 0 ≤ value.port ∧ value.port ≤ 65535
  duration : ∃ seconds : Int,
    0 ≤ seconds ∧ seconds ≤ maxSTSSeconds ∧ value.duration = seconds * 10 ^ 9

theorem parseSTSToken_wellFormed {value : StsValue} (formed : value.WellFormed) {token : Bytes} :
    (parseSTSToken value token).WellFormed := by
  unfold parseSTSToken
  dsimp only
  split
  · split
    · split
      next number _ inPorts =>
        exact ⟨⟨inPorts.1.le, inPorts.2⟩, formed.duration⟩
      · exact formed
    · exact formed
  · split
    · split
      · split
        next number _ positive =>
          exact ⟨formed.port, min number maxSTSSeconds, le_min positive (by decide),
            min_le_right _ _, rfl⟩
        · exact formed
      · exact formed
    · exact formed

theorem parseSTS_wellFormed {value : Bytes} : (parseSTS value).WellFormed := by
  have start : ({} : StsValue).WellFormed := ⟨⟨le_rfl, by decide⟩, 0, le_rfl, by decide, rfl⟩
  exact List.foldlRecOn _ parseSTSToken start fun value formed token _ =>
    parseSTSToken_wellFormed formed

end Ircthing.Irc
