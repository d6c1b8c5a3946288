import AliyunIot.Infra.CStr
import AliyunIot.Infra.State

/-!
# Topics and topic filters

`iotx_mc_check_rule`, `iotx_mc_check_topic` with the tokenizer `infra_strtok`
it runs over the topic, and the wildcard matcher `iotx_mc_is_topic_matched`.
A pointer into a string is the list of bytes from it on.
-/

namespace AliyunIot.Mqtt

abbrev chSlash : UInt8 := 0x2F
abbrev chPlus : UInt8 := 0x2B
abbrev chHash : UInt8 := 0x23

inductive TopicType where
  | topicName | topicFilter
  deriving DecidableEq

abbrev configMqttTopicMaxlen : Nat := 128

/-! ## `infra_strtok` -/

/-- The loop of `infra_strtok` with the delimiter `"/"`: `tok` is what lies
between `target` and `pos`. It returns the token and the new `pos`. -/
def infraStrtokLoop : Bool → List UInt8 → List UInt8 → Option (List UInt8) × List UInt8
  | _, tok, [] => (some tok, [])
  | onlyDelim, tok, b :: rest =>
    if b ≠ chSlash then infraStrtokLoop false (tok ++ [b]) rest
    else if rest = [] then (if onlyDelim then none else some tok, [])
    else if tok = [] then infraStrtokLoop onlyDelim [] rest
    else (some tok, rest)

def infraStrtok (pos : List UInt8) : Option (List UInt8) × List UInt8 :=
  if pos.length ≤ 1 then (none, pos) else infraStrtokLoop true [] pos

theorem infraStrtokLoop_pos (pos : List UInt8) (onlyDelim : Bool) (tok : List UInt8) :
    (infraStrtokLoop onlyDelim tok pos).2.length ≤ pos.length - 1 := by
  induction pos generalizing onlyDelim tok with
  | nil => rw [infraStrtokLoop]; exact Nat.le_refl _
  | cons b rest ih =>
    rw [infraStrtokLoop, List.length_cons]
    split
    · have := ih false (tok ++ [b]); omega
    · split
      · exact Nat.zero_le _
      · split
        · have := ih onlyDelim []; omega
        · exact Nat.le_refl _

theorem infraStrtok_lt {pos tok pos' : List UInt8} (h : infraStrtok pos = (some tok, pos')) :
    pos'.length < pos.length := by
  unfold infraStrtok at h
  split at h
  · cases h
  · have := infraStrtokLoop_pos pos true []
    rw [h] at this
    have hp : pos'.length ≤ pos.length - 1 := this
    omega

/-! ## Validation -/

/-- `iotx_mc_check_rule` from character `i` on; `len` is the length of the item. -/
def iotxMcCheckRuleLoop (len : Nat) (type : TopicType) : List UInt8 → Int
  | [] => State.success
  | b :: rest =>
    if (b = chPlus ∨ b = chHash) ∧ (type = .topicFilter → len ≠ 1) then State.mqttUnexpTopicFormat
    else if b < 32 ∨ b ≥ 127 then State.mqttUnexpTopicFormat
    else iotxMcCheckRuleLoop len type rest

def iotxMcCheckRule (iterm : Option (List UInt8)) (type : TopicType) : Int :=
  match iterm with
  | none => State.userInputInvalid
  | some iterm => iotxMcCheckRuleLoop iterm.length type iterm

/-- The loop of `iotx_mc_check_topic` over the further items; `mask` records a
`#` item. -/
def iotxMcCheckTopicLoop (type : TopicType) (mask : Bool) (pos : List UInt8) : Int :=
  match _ : infraStrtok pos with
  | (none, _) => State.success
  | (some iterm, pos') =>
    if mask then State.mqttUnexpTopicFormat
    else
      let res := iotxMcCheckRule (some iterm) type
      if res < State.success then res
      else iotxMcCheckTopicLoop type (iterm.head? = some chHash) pos'
termination_by pos.length
decreasing_by exact infraStrtok_lt (by assumption)

def iotxMcCheckTopic (topicName : CStr) (type : TopicType) : Int :=
  if topicName.charAt 0 ≠ chSlash then State.mqttUnexpTopicFormat
  else if topicName.strlen > configMqttTopicMaxlen then State.mqttTopicBufTooShort
  else
    let topicString := topicName.val.take (configMqttTopicMaxlen - 1)
    let (iterm, pos) := infraStrtok topicString
    let res := iotxMcCheckRule iterm type
    if res < State.success then res
    else iotxMcCheckTopicLoop type false pos

/-! ## Matching -/

/-- `iotx_mc_is_topic_matched` on the filter from `curf` on and the topic name
from `curn` to its end. -/
def iotxMcIsTopicMatched : List UInt8 → List UInt8 → Bool
  | [], curn => curn.isEmpty
  | _ :: _, [] => false
  | f :: curf, n :: curn =>
    if n = chSlash ∧ f ≠ chSlash then false
    else if f ≠ chPlus ∧ f ≠ chHash ∧ f ≠ n then false
    else if f = chPlus then iotxMcIsTopicMatched curf (curn.dropWhile (· ≠ chSlash))
    else if f = chHash then iotxMcIsTopicMatched curf []
    else iotxMcIsTopicMatched curf curn

end AliyunIot.Mqtt
