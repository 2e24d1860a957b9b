import MinaLedger.Core
import MinaLedger.Lib.Radix
import MinaLedger.Lib.Curve
import MinaLedger.Lib.Ladder
import MinaLedger.Lib.Lucas
import MinaLedger.Types
import MinaLedger.L1Encoding.PackedBits
import MinaLedger.L2Crypto.ScalarMul
import MinaLedger.L2Crypto.Field
import MinaLedger.L1Encoding.ROInput
import MinaLedger.L1Encoding.ROInputMessage
import MinaLedger.L3Message.Transaction
import MinaLedger.L1Encoding.Base58
import MinaLedger.L1Encoding.Base58Decode
import MinaLedger.L1Encoding.Base58Encode
import MinaLedger.L2Crypto.Address
import MinaLedger.Bugs.AddressKind
import MinaLedger.Bugs.StaleAddress
import MinaLedger.L1Encoding.AmountText
import MinaLedger.L1Encoding.Wire
import MinaLedger.L3Message.ParseTx
import MinaLedger.L4App.SignTx
import MinaLedger.L4App.Review
import MinaLedger.Bugs.DelegationAmount
import MinaLedger.L2Crypto.Sign
import MinaLedger.Bugs.NonceTopBit
import MinaLedger.L2Crypto.OnCurve
import MinaLedger.Bugs.SamePoint
import MinaLedger.L1Encoding.Base58RoundTrip
import MinaLedger.L2Crypto.Keypair
import MinaLedger.L2Crypto.Compressed
import MinaLedger.L2Crypto.CurveChecks
import MinaLedger.L4App.SignTransaction
import MinaLedger.L4App.Ux
import MinaLedger.L4App.GetAddress
import MinaLedger.L4App.Main
import MinaLedger.L4App.Run
import MinaLedger.L4App.Approval
import MinaLedger.Bugs.LiveScreen
import MinaLedger.L5Host.Wallet
import MinaLedger.Bugs.WalletArguments
import MinaLedger.L2Crypto.PoseidonTables
import MinaLedger.Bugs.UnreducedOperand
import MinaLedger.L1Encoding.Builder
import MinaLedger.Bugs.EncodeGuard
import MinaLedger.L2Crypto.Packing
import MinaLedger.Bugs.HashMsgOverrun
import MinaLedger.L1Encoding.NoncePreimage
import MinaLedger.L1Encoding.AmountExact
import MinaLedger.Lib.Bip32
import MinaLedger.Bugs.AccountRange
import MinaLedger.L2Crypto.PoseidonBijective
import MinaLedger.L2Crypto.SignMemory
import MinaLedger.Bugs.LeftoverKey
import MinaLedger.L4App.Answers
import MinaLedger.Lib.Service
import MinaLedger.L4App.Conversation
import MinaLedger.L4App.Completion
import MinaLedger.L4App.Replies
import MinaLedger.L5Host.Json
import MinaLedger.L5Host.Rosetta
import MinaLedger.L5Host.Online
import MinaLedger.L5Host.Session
import MinaLedger.L5Host.Device
import MinaLedger.L5Host.Offline
import MinaLedger.L5Host.Address
import MinaLedger.L5Host.Payment
import MinaLedger.L5Host.Commands
import MinaLedger.L4App.Node
