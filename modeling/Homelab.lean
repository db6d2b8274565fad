import Homelab.Autodeploy.Attempts
import Homelab.Autodeploy.Convergence
import Homelab.Autodeploy.Drift
import Homelab.Autodeploy.PlanAlgebra
import Homelab.Backup.Atomicity
import Homelab.Backup.Retention
import Homelab.Backup.StateBroken
import Homelab.BackupObserver.Running
import Homelab.BackupObserver.Summary
import Homelab.ControlApi.Guard
import Homelab.ControlApi.Junk
import Homelab.ControlApi.StorageCache
import Homelab.GdriveBackup.Sync
import Homelab.GithubRunner.Accounting
import Homelab.GithubRunner.Baseline
import Homelab.GithubRunner.Cap
import Homelab.GithubRunner.Heartbeat
import Homelab.GithubRunner.Reaping
import Homelab.HostAlerts.Disk
import Homelab.HostAlerts.PidBudget
import Homelab.HostAlerts.Swap
import Homelab.IndexerHealth.Exactness
import Homelab.KernelIo.RoundTrip
import Homelab.LogStats.Count
import Homelab.MacPresence.Debounce
import Homelab.MacPresence.Persistence
import Homelab.NfsMetrics.Agreement
import Homelab.NfsMount.Children
import Homelab.NfsMount.Nfsstat
import Homelab.NfsMount.Overmount
import Homelab.NfsMount.Worker
import Homelab.NtfyBridge.Serving
import Homelab.RunnerMetrics.Parity
import Homelab.SplitDns.Check
import Homelab.SplitDns.Labels
import Homelab.UptimeKuma.Seeding
import Homelab.Watchdog.Closure
import Homelab.Watchdog.Files
import Homelab.Watchdog.Ledger
import Homelab.Watchdog.Paging
import Homelab.Watchdog.Promptness
import Homelab.Watchdog.Refinement
import Homelab.Watchdog.Scrape
