import Rzi.Legacy
import Rzi.StorageRecord
import Rzi.StorageNames
import Rzi.JoinPending
import Rzi.JoinStop
import Rzi.JoinAttempts
import Rzi.JoinLeave
import Rzi.JoinFlags
import Rzi.JoinCredentials
import Rzi.AtOverflow
import Rzi.AtUnlock
import Rzi.FuotaReady
import Rzi.FuotaInstall
import Rzi.FuotaCopy
import Rzi.FuotaCopyLog
import Rzi.FuotaSize
import Rzi.FuotaSession
import Rzi.FuotaApply
import Rzi.UspUplink
import Rzi.UspReset
import Rzi.UspClassB
import Rzi.ZephyrNonce
import Rzi.ZephyrProgress
import Rzi.AtSend
import Rzi.AtCfs
import Rzi.AtReply
import Rzi.AtLine
import Rzi.AtEditor
import Rzi.AtClass
import Rzi.EventQueue
import Rzi.Subscribers
import Rzi.CredentialFrame
import Rzi.ClassPower
import Rzi.AtChannels
import Rzi.AtP2p
import Rzi.AtNumbers
import Rzi.AtDownlink
import Rzi.AtJoinStop
import Rzi.AtStart
import Rzi.AtFactoryReset
import Rzi.AtNetworkRuns
import Rzi.LoraSend
import Rzi.Multicast
import Rzi.FuotaObserve
import Rzi.AtHex
import Rzi.FuotaKeepalive
import Rzi.AtIdentifiers
import Rzi.AtLink
import Rzi.AtP2pParameters
import Rzi.AtMulticast
import Rzi.ServiceStart
import Rzi.AtBand
import Rzi.UspPlatform
import Rzi.MacRequests
import Rzi.AtOptions
import Rzi.AtLinkControl
