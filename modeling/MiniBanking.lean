import MiniBanking.Audit.Services
import MiniBanking.Bank.Authorization
import MiniBanking.Bank.CanonicalJson
import MiniBanking.Bank.Conservation
import MiniBanking.Bank.CreateUser
import MiniBanking.Bank.DailyLimit
import MiniBanking.Bank.Deadlock
import MiniBanking.Bank.Envelope
import MiniBanking.Bank.HashInput
import MiniBanking.Bank.HistoryPages
import MiniBanking.Bank.Idempotency
import MiniBanking.Bank.Ledger
import MiniBanking.Bank.Reads
import MiniBanking.Bank.Replay
import MiniBanking.Bank.Reverify
import MiniBanking.Bank.Seed
import MiniBanking.Ca.PostgresQuery
import MiniBanking.Ca.Restart
import MiniBanking.Ca.Revocation
import MiniBanking.Ca.Soundness
import MiniBanking.Frontend.AsExchange
import MiniBanking.Frontend.ChainVerify
import MiniBanking.Frontend.Csr
import MiniBanking.Frontend.Exchanges
import MiniBanking.Frontend.ObjectIdentifiers
import MiniBanking.Frontend.OwnerCertificate
import MiniBanking.Frontend.SessionKeys
import MiniBanking.Frontend.SignedBytes
import MiniBanking.Frontend.Transfer
import MiniBanking.Gateway.AuditCap
import MiniBanking.Gateway.AuditCsv
import MiniBanking.Gateway.AuditExport
import MiniBanking.Gateway.AuditPaging
import MiniBanking.Gateway.OtpAttempts
import MiniBanking.Gateway.OtpUse
import MiniBanking.Gateway.RateCounters
import MiniBanking.Kdc.AsExchange
import MiniBanking.Kdc.Replay
import MiniBanking.Kerberos.Chain
import MiniBanking.Kerberos.ServiceTicket
