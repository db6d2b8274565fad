import Homelab.Effects.Attempt
import Homelab.Effects.History
import Mathlib.Data.List.Dedup
import Mathlib.Logic.Function.Basic

/-! # Seeding Uptime Kuma

`seed-from-backup.js` adds the notifications and monitors of the committed backup that the server
lacks, by name. It asks over a socket. An answer may be lost although the server did what was
asked, and the script gives up at the first failure.
-/

namespace Homelab.UptimeKuma

open Effects

/-! ## The backup and the server -/

/-- A notification without its `id`, which is kept beside it. -/
structure Notification (Settings : Type) where
  id : Nat
  name : String
  settings : Settings

/-- A monitor of the backup. What is missing or `null` is `none`. -/
structure Monitor where
  type : Option String
  name : String
  url : Option String
  hostname : Option String
  port : Option Nat
  dnsResolveServer : Option String
  dnsResolveType : Option String
  interval : Option Nat
  retryInterval : Option Nat
  maxretries : Option Nat
  acceptedStatuscodes : Option (List String)
  /-- The keys of the object, which are ids of notifications of the backup. -/
  notificationIDList : List Nat

structure Backup (Settings : Type) where
  notificationList : List (Notification Settings)
  monitorList : List Monitor

structure Listing where
  type : Option String
  name : String
  url : Option String
  hostname : Option String
  port : Option Nat
  dnsResolveServer : Option String
  dnsResolveType : String
  method : String
  interval : Nat
  retryInterval : Nat
  resendInterval : Nat
  maxretries : Nat
  acceptedStatuscodes : List String
  notificationIDList : List Nat
  upsideDown : Bool
  ignoreTls : Bool
  maxredirects : Nat
  expiryNotification : Bool
deriving DecidableEq

structure Server (Settings : Type) where
  notifications : List (Notification Settings)
  monitors : List Listing

def Server.empty {Settings : Type} : Server Settings := ⟨[], []⟩

structure World (Settings : Type) where
  server : Server Settings
  pushed : Server Settings

inductive Operation (Settings : Type)
  | connect
  | login
  | notificationList
  | monitorNames
  | addNotification (name : String) (settings : Settings)
  | add (listing : Listing)

/-- `none` and `false` stand for an answer that is not `ok`, and for none in time. -/
def Operation.Answer {Settings : Type} : Operation Settings → Type
  | .connect => Bool
  | .login => Bool
  | .notificationList => List (Notification Settings)
  | .monitorNames => List String
  | .addNotification _ _ => Option Nat
  | .add _ => Bool

abbrev interface (Settings : Type) : Interface := ⟨Operation Settings, Operation.Answer⟩

variable {Settings : Type}

abbrev Script (Settings Result : Type) := Attempt (interface Settings) String Result

/-! ## The script -/

abbrev NotifIdMap := Nat → Option Nat

def notificationIds (map : NotifIdMap) (keys : List Nat) : List Nat :=
  (keys.filterMap fun key => (map key).filter (· ≠ 0)).dedup

def orNull (text : Option String) : Option String := text.filter (· ≠ "")

/-- What `number || other` keeps. -/
def orElse (number : Option Nat) (other : Nat) : Nat := (number.filter (· ≠ 0)).getD other

def Monitor.listing (map : NotifIdMap) (monitor : Monitor) : Listing where
  type := monitor.type
  name := monitor.name
  url := orNull monitor.url
  hostname := orNull monitor.hostname
  port := monitor.port.filter (· ≠ 0)
  dnsResolveServer := orNull monitor.dnsResolveServer
  dnsResolveType := (orNull monitor.dnsResolveType).getD "A"
  method := "GET"
  interval := orElse monitor.interval 60
  retryInterval := orElse monitor.retryInterval 60
  resendInterval := 0
  maxretries := monitor.maxretries.getD 2
  acceptedStatuscodes := monitor.acceptedStatuscodes.getD ["200-299"]
  notificationIDList := notificationIds map monitor.notificationIDList
  upsideDown := false
  ignoreTls := false
  maxredirects := 10
  expiryNotification := false

def ask (operation : Operation Settings) : Script Settings operation.Answer :=
  ExceptT.lift (.call operation .done)

def seedNotification (map : NotifIdMap) (notification : Notification Settings) :
    Script Settings NotifIdMap := do
  let (live : List (Notification Settings)) ← ask .notificationList
  match live.find? (·.name = notification.name) with
  | some existing => return Function.update map notification.id (some existing.id)
  | none =>
      let (added : Option Nat) ← ask (.addNotification notification.name notification.settings)
      match added with
      | some id => return Function.update map notification.id (some id)
      | none => throw ("addNotification " ++ notification.name)

def seedNotifications (map : NotifIdMap) :
    List (Notification Settings) → Script Settings NotifIdMap
  | [] => return map
  | notification :: rest => do
      let map ← seedNotification map notification
      seedNotifications map rest

/-- The monitors are skipped by the names that were live before. The result is how many were
created and how many skipped. -/
def seedMonitors (live : List String) (map : NotifIdMap) (created skipped : Nat) :
    List Monitor → Script Settings (Nat × Nat)
  | [] => return (created, skipped)
  | monitor :: rest =>
      if monitor.name ∈ live then seedMonitors live map created (skipped + 1) rest
      else do
        let (added : Bool) ← ask (.add (monitor.listing map))
        if added then seedMonitors live map (created + 1) skipped rest
        else throw ("add " ++ monitor.name)

def seed (backup : Backup Settings) : Script Settings (Nat × Nat) := do
  let (connected : Bool) ← ask .connect
  if connected then
    let (loggedIn : Bool) ← ask .login
    if loggedIn then
      let map ← seedNotifications (fun _ => none) backup.notificationList
      let (live : List String) ← ask .monitorNames
      seedMonitors live map 0 0 backup.monitorList
    else throw "login failed"
  else throw "could not connect"

/-! ## What the server does -/

def Pushes (before after : World Settings) : Prop :=
  after.pushed = before.pushed ∨ after.pushed = after.server

def Server.Fresh (server : Server Settings) (id : Nat) : Prop :=
  id ≠ 0 ∧ ∀ notification ∈ server.notifications, notification.id ≠ id

def Server.notify (server : Server Settings) (id : Nat) (name : String) (settings : Settings) :
    Server Settings :=
  { server with notifications := server.notifications ++ [⟨id, name, settings⟩] }

def Server.list (server : Server Settings) (listing : Listing) : Server Settings :=
  { server with monitors := server.monitors ++ [listing] }

/-- Each run is a new client, to which nothing has been pushed. -/
def system : System (interface Settings) (World Settings) where
  Step world operation answer after :=
    match operation, answer with
    | .connect, _ => after = ⟨world.server, .empty⟩
    | .login, _ => after.server = world.server ∧ Pushes world after
    | .notificationList, (answer : List (Notification Settings)) =>
        after.server = world.server ∧ Pushes world after ∧ answer = after.pushed.notifications
    | .monitorNames, (answer : List String) =>
        after.server = world.server ∧ Pushes world after ∧
          answer = after.pushed.monitors.map Listing.name
    | .addNotification name settings, (answer : Option Nat) =>
        Pushes world after ∧
          match answer with
          | some id => world.server.Fresh id ∧ after.server = world.server.notify id name settings
          | none => after.server = world.server ∨
              ∃ id, world.server.Fresh id ∧ after.server = world.server.notify id name settings
    | .add listing, (answer : Bool) =>
        Pushes world after ∧ (after.server = world.server.list listing ∨
          (answer = false ∧ after.server = world.server))

abbrev SeedRun (Settings : Type) :=
  Run (interface Settings) (World Settings) (Backup Settings) (Except String (Nat × Nat))

abbrev Seeds (initial : World Settings) (runs : List (SeedRun Settings))
    (final : World Settings) : Prop :=
  History system (fun backup => (seed backup).run) initial runs final

/-- The pause after the login is long enough for the lists. -/
def Prompt (moment : Moment (interface Settings) (World Settings)) : Prop :=
  match moment.operation with
  | .login => moment.after.pushed = moment.after.server
  | _ => True

end Homelab.UptimeKuma
