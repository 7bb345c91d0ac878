import Zano.Lib.Transition
import Zano.Lib.Overlay
import Zano.Db.Cache
import Zano.Db.Accessor
import Zano.Db.Coherence
import Zano.Db.CachedCoherence
import Zano.Db.Abort
import Zano.Db.Accessors
import Zano.Consensus.Difficulty
import Zano.Consensus.ForkChoice
import Zano.Consensus.ForkChoiceAsymmetry
import Zano.Consensus.ChainSwitch
import Zano.Consensus.ChainSwitchResult
import Zano.Lib.Commitment
import Zano.Transactions.BalanceProof
import Zano.Transactions.Conservation
import Zano.Blockchain.Footprint
import Zano.Blockchain.Rollback
import Zano.Blockchain.Reorganization
import Zano.Lib.Codec
import Zano.Serialization.BinaryArchive
import Zano.Serialization.Payload
import Zano.Serialization.Transaction
import Zano.Serialization.Witness
import Zano.Serialization.TransactionId
import Zano.BlockHandling.MainChain
import Zano.BlockHandling.WitnessCopies
import Zano.BlockHandling.Poisoning
import Zano.Aliases.History
import Zano.Assets.Stores
import Zano.Assets.Supply
import Zano.Lib.SecondaryIndex
import Zano.Pool.Transactions
import Zano.Pool.SideTables
import Zano.AltBlocks.Container
import Zano.AltBlocks.Acceptance
import Zano.AltBlocks.SideTables
import Zano.AltBlocks.GlobalIndexes
import Zano.AltBlocks.Links
import Zano.AltBlocks.OutputIndexes
import Zano.Lib.HashChain
import Zano.AltBlocks.Lineages
import Zano.AltBlocks.DoubleSpends
import Zano.Consensus.AltBookkeeping
import Zano.Ledger.Gateways
import Zano.Ledger.Transactions
import Zano.Sync.ChainHistory
import Zano.Sync.CommonBlock
import Zano.Consensus.DerivedValues
import Zano.Wallet.MultisigSpends
import Zano.Wallet.EscrowContracts
import Zano.Wallet.Balance
import Zano.Wallet.Incomes
import Zano.Wallet.OneTimeKeys
import Zano.Lib.SampledWindow
import Zano.Wallet.ChainShortener
import Zano.Wallet.Synchronization
import Zano.Lib.IndexedTable
import Zano.Lib.Throwing
import Zano.Wallet.TransferEvents
import Zano.Wallet.TransferRequests
import Zano.Wallet.TransferIndexes
import Zano.Wallet.StableIndexes
import Zano.Addresses.Base58
import Zano.Addresses.Address
import Zano.Wallet.ShortenerRuns
import Zano.AltBlocks.Coinage
import Zano.AltBlocks.UsedBlocks
import Zano.Consensus.TimestampWindow
import Zano.Lib.Spelling
import Zano.Serialization.Spelling
import Zano.Lib.Losses
import Zano.Serialization.Losses
import Zano.Sync.ObjectRequests
import Zano.Sync.ObjectRequestRuns
import Zano.Transactions.Outputs
import Zano.Transactions.RecipientRuns
import Zano.Addresses.VarintSize
import Zano.Consensus.ProofOfWork
import Zano.AltBlocks.Pruning
import Zano.Blockchain.RestoreHeight
import Zano.Decoys.Outputs
import Zano.Lib.Loop
import Zano.Decoys.BareOutputs
import Zano.Decoys.RandomOuts
import Zano.Consensus.NextDifficulty
import Zano.Lib.Matching
import Zano.Transactions.MultisigChecking
import Zano.Decoys.BlockSearch
import Zano.Transactions.MultisigSigning
import Zano.Ledger.Visitors
import Zano.Ledger.GatewayRollback
import Zano.Transactions.KeyOffsets
import Zano.Consensus.BlockReward
import Zano.Serialization.AmountText
import Zano.Db.KeyToArray
import Zano.Db.KeyToArrayAccessors
import Zano.Consensus.ForkChoiceOrder
import Zano.Transactions.BlobSize
import Zano.Accounts.Mnemonic
import Zano.Accounts.SeedPhrase
import Zano.Addresses.AddressTexts
import Zano.Wallet.AmountSplit
import Zano.Wallet.Destinations
import Zano.Lib.Lockstep
import Zano.Transactions.PayloadVisitors
import Zano.Transactions.PayloadEncryption
import Zano.Consensus.TreeHash
import Zano.Sync.BlockRequests
import Zano.Services.OffersMarket
import Zano.Lib.Packing
import Zano.Wallet.BareSweep
import Zano.Lib.Checks
import Zano.Wallet.EscrowValidation
import Zano.Lib.KeyOrder
import Zano.Wallet.Rings
import Zano.Wallet.RingMembers
import Zano.Lib.Primality
import Zano.Crypto.Scalars
import Zano.Lib.Windows
import Zano.Crypto.Msm
import Zano.Lib.WeightedInnerProduct
import Zano.Crypto.RangeProofs
import Zano.Crypto.RangeProofVerification
import Zano.Lib.ChallengeRing
import Zano.Crypto.Clsag
import Zano.Lib.DistinctChallenges
import Zano.Crypto.OneOutOfMany
import Zano.Lib.SigmaProtocol
import Zano.Crypto.Schnorr
import Zano.Crypto.VectorUGAggregation
import Zano.Crypto.ZarcanumProof
import Zano.Lib.LittleEndian
import Zano.Lib.Reassembly
import Zano.Net.Levin
import Zano.Net.LevinExchange
