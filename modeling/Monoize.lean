import Monoize.AdmissionAgreement
import Monoize.ChatDecodersAgree
import Monoize.ChatSnapshotExact
import Monoize.ChatStreamEncoded
import Monoize.ClaimReplay
import Monoize.ClientIp
import Monoize.GeminiStream
import Monoize.LastUsedShipment
import Monoize.MeteringUndercount
import Monoize.QuotaSettlement
import Monoize.ReconcilerFence
import Monoize.Recoverable
import Monoize.ResponsesMessageSlot
import Monoize.RetentionMoney
import Monoize.SalesReferral
import Monoize.SalesThrottle
import Monoize.WealthConservation
import Monoize.ExchangeRate
import Monoize.ChannelHealth
import Monoize.Glob
import Monoize.PlanMaximum
import Monoize.QuotaCalendar
import Monoize.ReasoningEnvelope
import Monoize.RequestLogSpool
