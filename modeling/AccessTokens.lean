import AccessTokens.Proofs.Storage.History
import AccessTokens.Proofs.Storage.MemoryIndex
import AccessTokens.Policy.Variables
import AccessTokens.Record.Json
import AccessTokens.Service.Builder
import AccessTokens.Service.World
import AccessTokens.Storage.Backend
import AccessTokens.Storage.Opening
import AccessTokens.Proofs.Storage.MemoryHistory
import AccessTokens.Proofs.Text.Reader
import AccessTokens.Proofs.Time.RowText
import AccessTokens.Proofs.Storage.Table
import AccessTokens.Proofs.Storage.Agreement
import AccessTokens.Proofs.Service.Requests
import AccessTokens.Proofs.Service.Session
import AccessTokens.Proofs.Service.Verdict
import AccessTokens.Proofs.Service.Checking
import AccessTokens.Proofs.Service.Failure
import AccessTokens.Proofs.Storage.TableIndex
import AccessTokens.Proofs.Storage.IdReuse
import AccessTokens.Proofs.Service.Issuing
import AccessTokens.Proofs.Storage.StoredRow
import AccessTokens.Proofs.Service.IssuedTokens
import AccessTokens.Proofs.Time.LooseText
import AccessTokens.Proofs.Json.Written
import AccessTokens.Proofs.Record.Json
import AccessTokens.Proofs.Service.Moves
import AccessTokens.Proofs.Service.Cancellation
import AccessTokens.Proofs.Service.Asking
import AccessTokens.Proofs.Storage.Alternating
import AccessTokens.Proofs.Service.Revocation
import AccessTokens.Proofs.Storage.LastUse
import AccessTokens.Proofs.Service.Timing
import AccessTokens.Proofs.Service.Scheduling
import AccessTokens.Proofs.Service.Touches
import AccessTokens.Proofs.Text.Cutting
import AccessTokens.Proofs.Ability.Covering
import AccessTokens.Proofs.Ability.Persistence
import AccessTokens.Proofs.Storage.RowRoundTrip
import AccessTokens.Proofs.Secret.Layout
import AccessTokens.Proofs.Service.TokenLayout
import AccessTokens.Proofs.PlainToken.Reading
import AccessTokens.Proofs.Hash.Register
import AccessTokens.Proofs.Secret.Checksum
import AccessTokens.Proofs.Secret.Corruption
import AccessTokens.Proofs.Time.Addition
import AccessTokens.Proofs.Policy.Expiry
import AccessTokens.Proofs.Storage.Location
import AccessTokens.Proofs.Policy.Overlay
import AccessTokens.Proofs.Ability.Lists
import AccessTokens.Proofs.Service.PresentedId
import AccessTokens.Proofs.Service.Warnings
import AccessTokens.Proofs.Ability.Transitivity
import AccessTokens.Proofs.Policy.MethodName
import AccessTokens.Proofs.Policy.Numbers
import AccessTokens.Proofs.Service.Building
