import AliyunIot.Coap.Confined
import AliyunIot.Coap.RoundTrip
import AliyunIot.Coap.Length
import AliyunIot.Coap.MessageId
import AliyunIot.Coap.Malformed
import AliyunIot.Coap.Sendlist
import AliyunIot.Coap.ResponseOnce
import AliyunIot.Coap.LockOrder
import AliyunIot.Coap.ResourceTable
import AliyunIot.Coap.CloudLifetime
import AliyunIot.Coap.ObserveTable
import AliyunIot.Coap.Payload
import AliyunIot.Mqtt.PacketId
import AliyunIot.Mqtt.SubscribeSync
import AliyunIot.Ota.Rejected
import AliyunIot.Ota.Typestate
import AliyunIot.Ota.Covered
import AliyunIot.Ota.Commit
import AliyunIot.Dm.MessageCache
import AliyunIot.Dm.Upstream
import AliyunIot.Dm.Manager
import AliyunIot.Linkkit.AnswerOnce
import AliyunIot.Dm.Subscribe
import AliyunIot.Dm.RegisterKept
import AliyunIot.Dm.Status
import AliyunIot.Dm.LogReportKept
import AliyunIot.Cm.CoapReply
import AliyunIot.Linkkit.Yield
import AliyunIot.Linkkit.SyncOnce
import AliyunIot.Linkkit.AlcsRelease
import AliyunIot.Linkkit.OpenFailure
import AliyunIot.Linkkit.EventRoundTrip
import AliyunIot.Cm.Descriptor
import AliyunIot.Http2.StreamHeader
import AliyunIot.Http2.StreamSend
import AliyunIot.Infra.HttpcBody
import AliyunIot.Infra.HttpcHeader
import AliyunIot.Infra.JsonCursor
import AliyunIot.Infra.CjsonCut
import AliyunIot.Infra.CjsonItem
import AliyunIot.Infra.JsonLookup
import AliyunIot.Dynreg.Secret
import AliyunIot.Infra.Timer
import AliyunIot.Mqtt.TopicCheck
import AliyunIot.DevSign.Reference
import AliyunIot.Http.Reauth
import AliyunIot.Http.SendResult
import AliyunIot.Http2.KeepAlive
import AliyunIot.Wrappers.TransportContract
import AliyunIot.Dm.ShadowLaws
import AliyunIot.Http2.UploadRuns
import AliyunIot.Dm.TslWhole
import AliyunIot.Mqtt.Duplicate
import AliyunIot.Mqtt.Suback
import AliyunIot.Mqtt.Connect
import AliyunIot.Ota.Rollback
import AliyunIot.Ota.Parameters
import AliyunIot.Coap.UriPath
import AliyunIot.Infra.CjsonPath
import AliyunIot.Http2.UploadRange
import AliyunIot.Infra.TimeLeft
import AliyunIot.Dm.ShadowParams
import AliyunIot.Dm.HexCodec
import AliyunIot.Dm.NtpTime
import AliyunIot.Dm.TopicIdentity
import AliyunIot.Infra.HttpcUrl
import AliyunIot.Dynreg.MqttRegister
import AliyunIot.Dm.Itoa
import AliyunIot.Wrappers.TlsRandom
import AliyunIot.Wrappers.TlsSession
import AliyunIot.Infra.Hmac
import AliyunIot.DevSign.Password
import AliyunIot.Ota.DigestContexts
import AliyunIot.Infra.CjsonRoundTrip
import AliyunIot.Dm.Ipc
