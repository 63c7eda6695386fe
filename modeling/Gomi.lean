import Gomi.Interleaving.Program
import Gomi.Interleaving.Run
import Gomi.Go.Net
import Gomi.Machine.Types
import Gomi.Machine.Validate
import Gomi.BareMetal.Host
import Gomi.Store.Database
import Gomi.Store.Statements
import Gomi.Store.System
import Gomi.Store.Writes
import Gomi.Store.Client
import Gomi.BareMetal.Ownership
import Gomi.BareMetal.AttemptFence
import Gomi.BareMetal.RevisionFence
import Gomi.Machine.Reinstall
import Gomi.Api.Claims
import Gomi.Pxe.Progress
import Gomi.Pxe.Callbacks
import Gomi.App.Sync
import Gomi.Api.Redeploy
import Gomi.Api.Guard
import Gomi.Requests
import Gomi.Claim.Allowed
import Gomi.Claim.Rewrites
import Gomi.Claim.Callbacks
import Gomi.Claim.Handlers
import Gomi.Claim.Records
import Gomi.Claim.Labels
import Gomi.Api.Machines
import Gomi.Record.Isolation
import Gomi.Record.Stale
import Gomi.Record.Durable
import Gomi.Record.Deleted
import Gomi.Vm.Statements
import Gomi.Store.Backends
import Gomi.Vm.System
import Gomi.Vm.Service
import Gomi.Vm.Deploy
import Gomi.Vm.Callbacks
import Gomi.Vm.Writes
import Gomi.Dhcp.Lease
import Gomi.Transition
import Gomi.Dhcp.Server
import Gomi.Dhcp.Exclusive
import Gomi.Dhcp.Honoured
import Gomi.Detached
import Gomi.Dhcp.Converge
import Gomi.Dns.Names
import Gomi.TwoLevel
import Gomi.Dns.Inventory
import Gomi.Dns.Records
import Gomi.Dns.Embedded
import Gomi.Dns.Atomic
import Gomi.Dns.Reload
import Gomi.Dns.Cname
import Gomi.Dns.Restart
import Gomi.Dns.Serial
import Gomi.Dns.Publish
import Gomi.Hypervisors.System
import Gomi.Interleaving.Since
import Gomi.Hypervisors.Service
import Gomi.Hypervisors.Credentials
import Gomi.Go.Path
import Gomi.Interleaving.Sequential
import Gomi.Volumes.Storage
import Gomi.Volumes.Agent
import Gomi.Volumes.Names
import Gomi.Volumes.Isolated
import Gomi.Volumes.Clash
import Gomi.Hypervisors.Tokens
import Gomi.Go.Bytes
import Gomi.Power.Shutdown
import Gomi.Power.Daemon
import Gomi.Accounts.Setup
import Gomi.Discovery.Service
import Gomi.Discovery.Records
import Gomi.BareMetal.Seal
import Gomi.CloudConfig.Document
import Gomi.CloudConfig.Bootstrap
import Gomi.CloudConfig.Merge
import Gomi.Dhcp.Accepted
import Gomi.Power.Codec
import Gomi.Go.Fmt
import Gomi.Shell.Grammar
import Gomi.Pxe.Installer
import Gomi.Pxe.Quoting
import Gomi.Pxe.ArgumentSize
import Gomi.Api.WindowsWake
import Gomi.Vm.Window
import Gomi.Files
import Gomi.Images.Validate
import Gomi.Images.Handlers
import Gomi.Images.Ready
import Gomi.Bootenv.Manager
import Gomi.Bootenv.Publish
import Gomi.Bootenv.Build
import Gomi.Dhcp.Search
import Gomi.Volumes.DiskNames
import Gomi.Dns.ZoneOrder
import Gomi.Vm.Placement
import Gomi.Pxe.Tftp
import Gomi.Accounts.Password
import Gomi.Checksums
import Gomi.CloudConfig.Commands
import Gomi.Claim.Life
