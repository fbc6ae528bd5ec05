import CallgentApi.Lib.Transition
import CallgentApi.Lib.Separator
import CallgentApi.Lib.Framing
import CallgentApi.Lib.SortedCut
import CallgentApi.Lib.JsString
import CallgentApi.Lib.Search
import CallgentApi.Lib.PosixPath
import CallgentApi.Lib.Json
import CallgentApi.Lib.Url
import CallgentApi.Lib.Effect
import CallgentApi.Lib.Fallible
import CallgentApi.Lib.Alternatives
import CallgentApi.Lib.Chunks
import CallgentApi.Lib.Brackets
import CallgentApi.Lib.Correspondence
import CallgentApi.Lib.SortedObject
import CallgentApi.Lib.Table
import CallgentApi.Lib.TableRace
import CallgentApi.Lib.WriteLog
import CallgentApi.Lib.HalfAway
import CallgentApi.Pipe.Client
import CallgentApi.Pipe.Connection
import CallgentApi.Pipe.Server
import CallgentApi.Pipe.Stream
import CallgentApi.Pipe.Session
import CallgentApi.Invoke.Key
import CallgentApi.Event.Object
import CallgentApi.Event.Store
import CallgentApi.Event.Listener
import CallgentApi.Event.Engine
import CallgentApi.Event.Loop
import CallgentApi.Event.Loading
import CallgentApi.Event.Resumption
import CallgentApi.Event.Refinement
import CallgentApi.Event.Settled
import CallgentApi.Event.Started
import CallgentApi.Event.Edits
import CallgentApi.Event.Action
import CallgentApi.Repo.Select
import CallgentApi.Repo.Callgents
import CallgentApi.Event.TaskId
import CallgentApi.Event.TaskDir
import CallgentApi.Event.Concurrent
import CallgentApi.Realms.AuthProcessor
import CallgentApi.Realms.Service
import CallgentApi.Realms.Securities
import CallgentApi.Realms.Scheme
import CallgentApi.Realms.Reconstructed
import CallgentApi.Realms.Attaching
import CallgentApi.Invoke.Chain
import CallgentApi.Invoke.Passage
import CallgentApi.Invoke.Calls
import CallgentApi.Invoke.Advance
import CallgentApi.Cached.Service
import CallgentApi.Cached.Groups
import CallgentApi.Cached.Routes
import CallgentApi.Cached.History
import CallgentApi.Cached.Observers
import CallgentApi.Cached.Steps
import CallgentApi.Cached.Race
import CallgentApi.Invoke.Subprocess
import CallgentApi.Invoke.Service
import CallgentApi.Invoke.ScriptRunner
import CallgentApi.Invoke.Filing
import CallgentApi.Invoke.Callback
import CallgentApi.Invoke.Run
import CallgentApi.Cached.Orphans
import CallgentApi.Invoke.CheckCallback
import CallgentApi.Invoke.Outcome
import CallgentApi.Invoke.InFlight
import CallgentApi.Invoke.ScriptResult
import CallgentApi.Cached.Payload
import CallgentApi.Request.Services
import CallgentApi.Request.Pending
import CallgentApi.Request.Refused
import CallgentApi.Entries.RestApi
import CallgentApi.Entries.Attached
import CallgentApi.Entries.Forwarded
import CallgentApi.Entries.Credential
import CallgentApi.Entries.Wire
import CallgentApi.Config.Tables
import CallgentApi.Config.Import
import CallgentApi.Config.Naming
import CallgentApi.Config.ParseApis
import CallgentApi.Config.Guards
import CallgentApi.Config.Providers
import CallgentApi.Config.Upserts
import CallgentApi.Config.Derived
import CallgentApi.Config.RealmKeys
import CallgentApi.Hub.Tables
import CallgentApi.Hub.Services
import CallgentApi.Hub.References
import CallgentApi.Hub.Copies
import CallgentApi.Hub.Forked
import CallgentApi.Hub.Names
import CallgentApi.Entries.Commands
import CallgentApi.Entries.Secrets
import CallgentApi.Billing.Transactions
import CallgentApi.Billing.Stripe
import CallgentApi.Billing.ModelExpense
import CallgentApi.Agents.Answer
import CallgentApi.Agents.Fences
import CallgentApi.Agents.ToJson
import CallgentApi.Agents.CodeBlocks
import CallgentApi.Agents.Schema
import CallgentApi.Agents.SchemaPaths
import CallgentApi.Emails.Relay
import CallgentApi.Users.Tokens
import CallgentApi.Users.Bypass
import CallgentApi.Tenancy.Isolation
import CallgentApi.Clients.Controllers
import CallgentApi.Clients.Columns
import CallgentApi.Clients.Emitted
import CallgentApi.Agents.Llm
import CallgentApi.Agents.Reuse
import CallgentApi.Agents.Chat
import CallgentApi.Lib.Loose
import CallgentApi.Agents.Templates
import CallgentApi.Agents.Purposes
import CallgentApi.Agents.Confirm
import CallgentApi.Agents.Candidates
import CallgentApi.Agents.Confirmed
import CallgentApi.Agents.ArgHints
import CallgentApi.Agents.Script
import CallgentApi.Agents.Messages
import CallgentApi.Agents.Stages
import CallgentApi.Agents.Safety
import CallgentApi.Agents.SafeRuns
import CallgentApi.Agents.GivenHints
import CallgentApi.Agents.Req2Args
import CallgentApi.Users.Accounts
import CallgentApi.Users.ValidateEmail
import CallgentApi.Users.Verified
import CallgentApi.Users.Passwords
import CallgentApi.Event.Tasks
import CallgentApi.Event.TaskPages
import CallgentApi.Event.PagedTasks
import CallgentApi.Event.Uuid
import CallgentApi.Emails.Params
import CallgentApi.Emails.Responses
import CallgentApi.Web.DeepMerge
import CallgentApi.Web.MergeWalk
import CallgentApi.Web.MergedStates
import CallgentApi.Web.Webpages
import CallgentApi.Web.Packages
import CallgentApi.Web.Site
import CallgentApi.Repo.RecordSets
import CallgentApi.Summaries.Listeners
import CallgentApi.Summaries.Cascade
