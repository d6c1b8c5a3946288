import Mathlib.Data.Int.Notation

/-!
# Status codes

The codes of `infra_state.h`, `infra_defs.h` and the `errors` of
`MQTTPacket.h` that the modelled functions return. A call succeeds exactly
when its code is not negative.
-/

namespace AliyunIot.State

abbrev success : Int := 0

abbrev failReturn : Int := -1

abbrev userInputBase : Int := -0x0100
abbrev userInputPk : Int := userInputBase - 0x0003
abbrev userInputDn : Int := userInputBase - 0x0005
abbrev userInputMqttDomain : Int := userInputBase - 0x0008
abbrev userInputDevid : Int := userInputBase - 0x0010
abbrev userInputInvalid : Int := userInputBase - 0x0013

abbrev sysDependBase : Int := -0x0200
abbrev sysDependMalloc : Int := sysDependBase - 0x0001
abbrev sysDependMutexCreate : Int := sysDependBase - 0x0005
abbrev sysDependNwkClose : Int := sysDependBase - 0x0008
abbrev sysDependNwkReadError : Int := sysDependBase - 0x000B
abbrev sysDependSemaphoreCreate : Int := sysDependBase - 0x000C
abbrev sysDependSemaphoreWait : Int := sysDependBase - 0x000D
abbrev sysDependFirmwaireWirte : Int := sysDependBase - 0x000F

abbrev mqttBase : Int := -0x0300
abbrev mqttConnackVersionUnaccept : Int := mqttBase - 0x0001
abbrev mqttConnackNotAuthorized : Int := mqttBase - 0x0004
abbrev mqttWaitReconnTimer : Int := mqttBase - 0x0006
abbrev mqttSignHostnameBufShort : Int := mqttBase - 0x0007
abbrev mqttSignUsernameBufShort : Int := mqttBase - 0x0008
abbrev mqttSignClientidBufShort : Int := mqttBase - 0x0009
abbrev mqttSignSourceBufShort : Int := mqttBase - 0x000A
abbrev mqttSerializeConnError : Int := mqttBase - 0x000C
abbrev mqttSerializePubackError : Int := mqttBase - 0x000D
abbrev mqttSerializePingreqError : Int := mqttBase - 0x000E
abbrev mqttSerializeSubError : Int := mqttBase - 0x000F
abbrev mqttSerializeUnsubError : Int := mqttBase - 0x0010
abbrev mqttSerializePubError : Int := mqttBase - 0x0011
abbrev mqttDeserializeSubackError : Int := mqttBase - 0x0013
abbrev mqttDeserializePubError : Int := mqttBase - 0x0014
abbrev mqttDeserializeUnsubackError : Int := mqttBase - 0x0015
abbrev mqttPacketReadError : Int := mqttBase - 0x0016
abbrev mqttTxBufferTooShort : Int := mqttBase - 0x0019
abbrev mqttTopicBufTooShort : Int := mqttBase - 0x001A
abbrev mqttConnRetryExceedMax : Int := mqttBase - 0x001B
abbrev mqttQos1RepubExceedMax : Int := mqttBase - 0x001C
abbrev mqttPubQosInvalid : Int := mqttBase - 0x001D
abbrev mqttInOfflineStatus : Int := mqttBase - 0x001E
abbrev mqttRecvUnknownPacket : Int := mqttBase - 0x001F
abbrev mqttUnexpTopicFormat : Int := mqttBase - 0x0022
abbrev mqttSyncSubTimeout : Int := mqttBase - 0x0023
abbrev mqttAsyncStackConnInProg : Int := mqttBase - 0x0024

abbrev devModelBase : Int := -0x0900
abbrev devModelMasterAlreadyOpen : Int := devModelBase - 0x0001
abbrev devModelMasterNotOpenYet : Int := devModelBase - 0x0003
abbrev devModelMasterNotConnectYet : Int := devModelBase - 0x0004
abbrev devModelDeviceAlreadyExist : Int := devModelBase - 0x0005
abbrev devModelDeviceNotFound : Int := devModelBase - 0x0006
abbrev devModelSubdNotDeleteable : Int := devModelBase - 0x0007
abbrev devModelSubdNotLogin : Int := devModelBase - 0x0008
abbrev devModelInternalError : Int := devModelBase - 0x0009
abbrev devModelCmOpenFailed : Int := devModelBase - 0x000C
abbrev devModelCmFdNotFound : Int := devModelBase - 0x000D
abbrev devModelCmFdError : Int := devModelBase - 0x000E
abbrev devModelWrongJsonFormat : Int := devModelBase - 0x0011
abbrev devModelOtaImageCheckFailed : Int := devModelBase - 0x0018
abbrev devModelOtaTypeError : Int := devModelBase - 0x0019
abbrev devModelOtaFetchFailed : Int := devModelBase - 0x001A
abbrev devModelAlcsConstructFailed : Int := devModelBase - 0x001B
abbrev devModelRrpcidTooLong : Int := devModelBase - 0x001D
abbrev devModelDupUpstreamMsg : Int := devModelBase - 0x001F
abbrev devModelRefusedByCloud : Int := devModelBase - 0x0021
abbrev devModelUrlSplitFailed : Int := devModelBase - 0x0023
abbrev devModelAlinkMsgParseFailed : Int := devModelBase - 0x0024
abbrev devModelMsgqFull : Int := devModelBase - 0x002D
abbrev devModelCtxListFull : Int := devModelBase - 0x0032
abbrev devModelCtxListEmpty : Int := devModelBase - 0x0033
abbrev devModelYieldStopped : Int := devModelBase - 0x003C
abbrev devModelYieldRunning : Int := devModelBase - 0x003D

abbrev mqttPublishPacketError : Int := -21
abbrev mqttPublishAckPacketError : Int := -19

abbrev dmJsonParseFailed : Int := -4

/-- `enum errors` of the packet library. -/
abbrev mqttpacketBufferTooShort : Int := -2
abbrev mqttpacketReadError : Int := -1

/-! ## Errors are negative -/

theorem userInputInvalid_lt : userInputInvalid < success := by decide
theorem sysDependMalloc_lt : sysDependMalloc < success := by decide
theorem sysDependNwkClose_lt : sysDependNwkClose < success := by decide
theorem mqttSerializeSubError_lt : mqttSerializeSubError < success := by decide
theorem mqttSerializeUnsubError_lt : mqttSerializeUnsubError < success := by decide
theorem mqttInOfflineStatus_lt : mqttInOfflineStatus < success := by decide

end AliyunIot.State
