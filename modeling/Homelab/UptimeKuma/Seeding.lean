import Homelab.UptimeKuma.Seed
import Mathlib.Data.List.Count

/-! # Runs of the seeding

What one run may change, step by step, and what any number of runs come to, whatever fails and
wherever they are cut off.
-/

namespace Homelab.UptimeKuma

open Effects

variable {Settings : Type}

/-! ## What a run may change -/

/-- The backup wants this id of a live notification under this key. -/
def Means (backup : Backup Settings) (server : Server Settings) (key id : Nat) : Prop :=
  ∃ notification ∈ backup.notificationList, notification.id = key ∧
    ∃ live ∈ server.notifications, live.id = id ∧ live.name = notification.name

/-- The listing is a monitor of the backup, and notifies by the notifications of its keys. -/
def Linked (backup : Backup Settings) (server : Server Settings) (listing : Listing) : Prop :=
  ∃ monitor ∈ backup.monitorList, monitor.name = listing.name ∧
    (∀ id ∈ listing.notificationIDList, ∃ key ∈ monitor.notificationIDList,
      Means backup server key id) ∧
    ∀ key ∈ monitor.notificationIDList,
      (∃ notification ∈ backup.notificationList, notification.id = key) →
        ∃ id ∈ listing.notificationIDList, Means backup server key id

def missing (wanted live : List String) : List String := wanted.filter (· ∉ live)

/-- The database counts ids from one. -/
def Server.Numbered (server : Server Settings) : Prop :=
  ∀ notification ∈ server.notifications, notification.id ≠ 0

structure Extends (backup : Backup Settings) (before after : Server Settings) : Prop where
  notifications : ∃ added, after.notifications = before.notifications ++ added ∧
    (added.map Notification.name).Sublist (missing
      (backup.notificationList.map Notification.name)
      (before.notifications.map Notification.name))
  monitors : ∃ added, after.monitors = before.monitors ++ added ∧
    (added.map Listing.name).Sublist (missing (backup.monitorList.map Monitor.name)
      (before.monitors.map Listing.name)) ∧ ∀ listing ∈ added, Linked backup after listing
  numbered : before.Numbered → after.Numbered

structure Complete (backup : Backup Settings) (server : Server Settings) : Prop where
  notifications : ∀ notification ∈ backup.notificationList,
    notification.name ∈ server.notifications.map Notification.name
  monitors : ∀ monitor ∈ backup.monitorList, monitor.name ∈ server.monitors.map Listing.name

section

variable {backup : Backup Settings} {start server : Server Settings}
  {done : List (Notification Settings)} {map : NotifIdMap} {world after : World Settings}

theorem Extends.refl (backup : Backup Settings) (server : Server Settings) :
    Extends backup server server :=
  ⟨⟨[], by simp⟩, ⟨[], by simp⟩, id⟩

theorem missing_snoc (wanted live : List String) (name : String) :
    missing (wanted ++ [name]) live =
      missing wanted live ++ if name ∈ live then [] else [name] := by
  by_cases known : name ∈ live <;> simp [missing, known]

theorem missing_grows (wanted rest live : List String) :
    (missing wanted live).Sublist (missing (wanted ++ rest) live) := by
  rw [missing, missing, List.filter_append]
  exact List.sublist_append_left _ _

/-- The notifications of `done` are through. -/
structure Notified (start : Server Settings) (done : List (Notification Settings))
    (map : NotifIdMap) (server : Server Settings) : Prop where
  added : ∃ added, server.notifications = start.notifications ++ added ∧
    (added.map Notification.name).Sublist
      (missing (done.map Notification.name) (start.notifications.map Notification.name))
  monitors : server.monitors = start.monitors
  numbered : server.Numbered
  present : ∀ notification ∈ done,
    notification.name ∈ server.notifications.map Notification.name
  covered : ∀ notification ∈ done, ∃ id, map notification.id = some id
  meant : ∀ key id, map key = some id → ∃ notification ∈ done,
    notification.id = key ∧
      ∃ live ∈ server.notifications, live.id = id ∧ live.name = notification.name

/-- What the client has been pushed is not older than its login. -/
structure Current (start : Server Settings) (world : World Settings) : Prop where
  known : start.notifications <+: world.pushed.notifications
  live : world.pushed.notifications <+: world.server.notifications
  monitors : world.pushed.monitors = start.monitors

theorem Notified.initial (numbered : server.Numbered) :
    Notified server [] (fun _ => none) server :=
  ⟨⟨[], by simp [missing]⟩, rfl, numbered, by simp, by simp, by simp⟩

theorem Current.initial (prompt : world.pushed = world.server) : Current world.server world :=
  ⟨prompt ▸ List.prefix_refl _, prompt ▸ List.prefix_refl _, by rw [prompt]⟩

theorem Notified.extends (notified : Notified start done map server)
    {rest : List (Notification Settings)} (all : backup.notificationList = done ++ rest) :
    Extends backup start server := by
  rcases notified.added with ⟨added, equal, few⟩
  refine ⟨⟨added, equal, ?_⟩, ⟨[], by simp [notified.monitors]⟩, fun _ => notified.numbered⟩
  rw [all, List.map_append]
  exact few.trans (missing_grows _ _ _)

/-- One notification more is live, and its id is noted. -/
theorem Notified.noted {notification : Notification Settings} {id : Nat}
    {later : Server Settings} (notified : Notified start done map server)
    (added : ∃ added, later.notifications = start.notifications ++ added ∧
      (added.map Notification.name).Sublist (missing
        ((done ++ [notification]).map Notification.name)
        (start.notifications.map Notification.name)))
    (monitors : later.monitors = start.monitors) (numbered : later.Numbered)
    (kept : ∀ live ∈ server.notifications, live ∈ later.notifications)
    (live : ∃ live ∈ later.notifications, live.id = id ∧ live.name = notification.name) :
    Notified start (done ++ [notification])
      (Function.update map notification.id (some id)) later := by
  refine ⟨added, monitors, numbered, ?_, ?_, ?_⟩
  · intro other member
    rcases List.mem_append.mp member with member | member
    · rcases List.mem_map.mp (notified.present other member) with ⟨found, inside, same⟩
      exact List.mem_map.mpr ⟨found, kept found inside, same⟩
    · rcases live with ⟨found, inside, _, same⟩
      rw [List.mem_singleton.mp member]
      exact List.mem_map.mpr ⟨found, inside, same⟩
  · intro other member
    by_cases key : other.id = notification.id
    · exact ⟨id, by rw [key, Function.update_self]⟩
    · rw [Function.update_of_ne key]
      rcases List.mem_append.mp member with member | member
      · exact notified.covered other member
      · exact absurd (by rw [List.mem_singleton.mp member]) key
  · intro key number found
    by_cases own : key = notification.id
    · subst own
      rw [Function.update_self, Option.some.injEq] at found
      subst found
      exact ⟨notification, by simp, rfl, live⟩
    · rw [Function.update_of_ne own] at found
      rcases notified.meant key number found with ⟨other, member, same, present, inside, means⟩
      exact ⟨other, by simp [member], same, present, kept present inside, means⟩

/-- A notification that is live already is taken by its name. -/
theorem Notified.taken {notification existing : Notification Settings}
    (notified : Notified start done map server) (live : existing ∈ server.notifications)
    (same : existing.name = notification.name) :
    Notified start (done ++ [notification])
      (Function.update map notification.id (some existing.id)) server := by
  rcases notified.added with ⟨added, equal, few⟩
  refine notified.noted ⟨added, equal, ?_⟩ notified.monitors notified.numbered
    (fun _ member => member) ⟨existing, live, rfl, same⟩
  rw [List.map_append]
  exact few.trans (missing_grows _ _ _)

theorem notify_added {notification : Notification Settings} {id : Nat}
    (notified : Notified start done map server)
    (lacks : notification.name ∉ start.notifications.map Notification.name) :
    ∃ added, (server.notify id notification.name notification.settings).notifications =
        start.notifications ++ added ∧
      (added.map Notification.name).Sublist (missing
        ((done ++ [notification]).map Notification.name)
        (start.notifications.map Notification.name)) := by
  rcases notified.added with ⟨added, equal, few⟩
  refine ⟨added ++ [⟨id, notification.name, notification.settings⟩], by simp [Server.notify, equal],
    ?_⟩
  rw [List.map_append, List.map_append, List.map_singleton, List.map_singleton, missing_snoc,
    if_neg lacks]
  exact few.append (List.Sublist.refl _)

theorem Server.Numbered.notify {id : Nat} {name : String} {settings : Settings}
    (numbered : server.Numbered) (fresh : server.Fresh id) :
    (server.notify id name settings).Numbered := by
  intro notification member
  rcases List.mem_append.mp member with member | member
  · exact numbered notification member
  · rw [List.mem_singleton.mp member]
    exact fresh.1

/-- The server holds one notification more, whether or not the client is told. -/
theorem notify_extends {rest : List (Notification Settings)} {notification : Notification Settings}
    {id : Nat} (notified : Notified start done map server) (fresh : server.Fresh id)
    (all : backup.notificationList = done ++ notification :: rest)
    (lacks : notification.name ∉ start.notifications.map Notification.name) :
    Extends backup start (server.notify id notification.name notification.settings) := by
  rcases notify_added notified lacks with ⟨added, equal, few⟩
  refine ⟨⟨added, equal, few.trans ?_⟩, ⟨[], by simp [Server.notify, notified.monitors]⟩,
    fun _ => notified.numbered.notify fresh⟩
  have split : backup.notificationList.map Notification.name =
      (done ++ [notification]).map Notification.name ++ rest.map Notification.name := by
    simp [all]
  rw [split]
  exact missing_grows _ _ _

/-- A notification that is not live is added, and then it is. -/
theorem Notified.notify {notification : Notification Settings} {id : Nat}
    (notified : Notified start done map server) (fresh : server.Fresh id)
    (lacks : notification.name ∉ start.notifications.map Notification.name) :
    Notified start (done ++ [notification])
      (Function.update map notification.id (some id))
      (server.notify id notification.name notification.settings) :=
  notified.noted (notify_added notified lacks) notified.monitors (notified.numbered.notify fresh)
    (fun _ member => List.mem_append_left _ member)
    ⟨⟨id, notification.name, notification.settings⟩, by simp [Server.notify], rfl, rfl⟩

/-! ## A run, step by step -/

/-- Part of a run that began with the server at `start`. It keeps to what a run may change. -/
abbrev During {α : Type} (backup : Backup Settings) (start : Server Settings)
    (post : World Settings → α → Prop) (attempt : Script Settings α)
    (past : Past (interface Settings) (World Settings)) (world : World Settings) : Prop :=
  Attempt.Guarded (system.restrict Prompt)
    (fun _ moment => Extends backup start moment.after.server)
    (fun _ world result => post world result) (fun _ _ _ => True) attempt past world

variable {α β : Type} {past : Past (interface Settings) (World Settings)}

theorem ask_bind {operation : Operation Settings} {next : operation.Answer → Script Settings α}
    {post : World Settings → α → Prop}
    (each : ∀ (answer : operation.Answer) after, (system.restrict Prompt).Step world operation
      answer after → Extends backup start after.server ∧
        During backup start post (next answer) (⟨world, operation, answer, after⟩ :: past) after) :
    During backup start post (ask operation >>= next) past world :=
  Attempt.bind_iff.mpr (Attempt.lift_iff.mpr each)

theorem Current.pushes (current : Current start world)
    (grows : world.server.notifications <+: after.server.notifications)
    (monitors : after.server.monitors = start.monitors) (pushes : Pushes world after) :
    Current start after := by
  rcases current with ⟨known, live, same⟩
  rcases pushes with kept | told
  · rw [← kept] at known live same
    exact ⟨known, live.trans grows, same⟩
  · refine ⟨?_, ?_, by rw [told, monitors]⟩
    · rw [told]
      exact known.trans (live.trans grows)
    · simp [told]

/-- What the client does not find was not live at the start. -/
theorem Current.unlisted {name : String} (current : Current start world)
    (found : world.pushed.notifications.find? (·.name = name) = none) :
    name ∉ start.notifications.map Notification.name := by
  intro member
  rcases List.mem_map.mp member with ⟨live, inside, same⟩
  have other := List.find?_eq_none.mp found live (current.known.subset inside)
  simp [same] at other

/-- Whatever is answered, at most the notification that was asked for is added. -/
theorem addNotification_extends {notification : Notification Settings}
    {rest : List (Notification Settings)} {answer : Option Nat}
    (notified : Notified start done map world.server)
    (all : backup.notificationList = done ++ notification :: rest)
    (lacks : notification.name ∉ start.notifications.map Notification.name)
    (step : system.Step world (.addNotification notification.name notification.settings) answer
      after) : Extends backup start after.server := by
  cases answer with
  | some id =>
      rcases step with ⟨_, fresh, grown⟩
      rw [grown]
      exact notify_extends notified fresh all lacks
  | none =>
      rcases step with ⟨_, unchanged | ⟨id, fresh, grown⟩⟩
      · rw [unchanged]
        exact notified.extends all
      · rw [grown]
        exact notify_extends notified fresh all lacks

/-- An id that is answered is that of the notification that was asked for. -/
theorem addNotification_notifies {notification : Notification Settings} {id : Nat}
    (notified : Notified start done map world.server) (current : Current start world)
    (lacks : notification.name ∉ start.notifications.map Notification.name)
    (step : system.Step world (.addNotification notification.name notification.settings)
      (some id : Option Nat) after) :
    Notified start (done ++ [notification])
      (Function.update map notification.id (some id)) after.server ∧
        Current start after := by
  rcases step with ⟨pushed, fresh, grown⟩
  have next := notified.notify fresh lacks
  rw [← grown] at next
  refine ⟨next, current.pushes ?_ next.monitors pushed⟩
  rw [grown]
  exact List.prefix_append _ _

theorem seedNotification_notifies {notification : Notification Settings}
    {rest : List (Notification Settings)} (notified : Notified start done map world.server)
    (current : Current start world) (all : backup.notificationList = done ++ notification :: rest) :
    During backup start
      (fun world map => Notified start (done ++ [notification]) map world.server ∧
        Current start world) (seedNotification map notification) past world := by
  apply ask_bind
  rintro answer after ⟨⟨same, pushes, told⟩, _⟩
  change List (Notification Settings) at answer
  subst told
  have still : Notified start done map after.server := same ▸ notified
  have seen : Current start after := current.pushes (by simp [same]) still.monitors pushes
  refine ⟨still.extends all, ?_⟩
  cases found : after.pushed.notifications.find? (·.name = notification.name) with
  | some existing =>
      have inside := seen.live.subset (List.mem_of_find?_eq_some found)
      have name : existing.name = notification.name := by simpa using List.find?_some found
      simp only [found]
      exact ⟨still.taken inside name, seen⟩
  | none =>
      have lacks := seen.unlisted found
      simp only [found]
      apply ask_bind
      rintro added later ⟨step, _⟩
      change Option Nat at added
      refine ⟨addNotification_extends still all lacks step, ?_⟩
      cases added with
      | some id => exact addNotification_notifies still seen lacks step
      | none => trivial

theorem seedNotifications_notify {rest : List (Notification Settings)}
    (notified : Notified start done map world.server) (current : Current start world)
    (all : backup.notificationList = done ++ rest) :
    During backup start
      (fun world map => Notified start backup.notificationList map world.server ∧
        Current start world) (seedNotifications map rest) past world := by
  induction rest generalizing done map past world with
  | nil =>
      rw [List.append_nil] at all
      rw [all]
      exact ⟨notified, current⟩
  | cons notification rest induction =>
      refine Attempt.bind (seedNotification_notifies notified current all) ?_
      rintro past world map ⟨notified, current⟩
      exact induction notified current (by simp [all])

/-- The monitors of `done` are through, and `created` of them were added. -/
structure Listed (backup : Backup Settings) (start between : Server Settings)
    (done : List Monitor) (created : Nat) (server : Server Settings) : Prop where
  notifications : server.notifications = between.notifications
  added : ∃ added, server.monitors = start.monitors ++ added ∧ added.length = created ∧
    added.map Listing.name =
      missing (done.map Monitor.name) (start.monitors.map Listing.name) ∧
    ∀ listing ∈ added, Linked backup server listing

theorem mem_notificationIds {keys : List Nat} {id : Nat} :
    id ∈ notificationIds map keys ↔ id ≠ 0 ∧ ∃ key ∈ keys, map key = some id := by
  simp only [notificationIds, List.mem_dedup, List.mem_filterMap, Option.filter_eq_some_iff,
    decide_eq_true_eq]
  constructor
  · rintro ⟨key, member, found, positive⟩
    exact ⟨positive, key, member, found⟩
  · rintro ⟨positive, key, member, found⟩
    exact ⟨key, member, found, positive⟩

variable {between later : Server Settings} {created skipped : Nat} {listing : Listing}

theorem Means.mono {key id : Nat} (means : Means backup server key id)
    (kept : ∀ live ∈ server.notifications, live ∈ later.notifications) :
    Means backup later key id := by
  rcases means with ⟨notification, member, same, live, inside, rest⟩
  exact ⟨notification, member, same, live, kept live inside, rest⟩

theorem Linked.mono (linked : Linked backup server listing)
    (kept : ∀ live ∈ server.notifications, live ∈ later.notifications) :
    Linked backup later listing := by
  rcases linked with ⟨monitor, member, same, sound, full⟩
  refine ⟨monitor, member, same, fun id inside => ?_, fun key inside wanted => ?_⟩
  · rcases sound id inside with ⟨key, known, means⟩
    exact ⟨key, known, means.mono kept⟩
  · rcases full key inside wanted with ⟨id, known, means⟩
    exact ⟨id, known, means.mono kept⟩

theorem listing_linked {monitor : Monitor}
    (notified : Notified start backup.notificationList map between)
    (member : monitor ∈ backup.monitorList) :
    Linked backup between (monitor.listing map) := by
  refine ⟨monitor, member, rfl, fun id inside => ?_, ?_⟩
  · rcases mem_notificationIds.mp inside with ⟨_, key, known, found⟩
    exact ⟨key, known, notified.meant key id found⟩
  · rintro key inside ⟨notification, wanted, rfl⟩
    rcases notified.covered notification wanted with ⟨id, found⟩
    have means := notified.meant _ id found
    rcases means with ⟨_, _, _, live, present, same, _⟩
    have positive : id ≠ 0 := same ▸ notified.numbered live present
    exact ⟨id, mem_notificationIds.mpr ⟨positive, _, inside, found⟩, notified.meant _ id found⟩

theorem Listed.extends {done rest : List Monitor}
    (listed : Listed backup start between done created server)
    (notified : Notified start backup.notificationList map between)
    (all : backup.monitorList = done ++ rest) : Extends backup start server := by
  rcases notified.added with ⟨addedNotifications, equal, few⟩
  rcases listed.added with ⟨added, grown, _, names, linked⟩
  refine ⟨⟨addedNotifications, listed.notifications.trans equal, few⟩,
    ⟨added, grown, ?_, linked⟩, fun _ => ?_⟩
  · rw [names, all, List.map_append]
    exact missing_grows _ _ _
  · rw [Server.Numbered, listed.notifications]
    exact notified.numbered

theorem Listed.skip {done : List Monitor} {monitor : Monitor}
    (listed : Listed backup start between done created server)
    (live : monitor.name ∈ start.monitors.map Listing.name) :
    Listed backup start between (done ++ [monitor]) created server := by
  rcases listed.added with ⟨added, grown, count, names, linked⟩
  refine ⟨listed.notifications, added, grown, count, ?_, linked⟩
  rw [names, List.map_append, List.map_singleton, missing_snoc, if_pos live, List.append_nil]

theorem Listed.add {done : List Monitor} {monitor : Monitor}
    (listed : Listed backup start between done created server)
    (notified : Notified start backup.notificationList map between)
    (member : monitor ∈ backup.monitorList)
    (lacks : monitor.name ∉ start.monitors.map Listing.name) :
    Listed backup start between (done ++ [monitor]) (created + 1)
      (server.list (monitor.listing map)) := by
  rcases listed.added with ⟨added, grown, count, names, linked⟩
  refine ⟨listed.notifications, added ++ [monitor.listing map], by simp [Server.list, grown],
    by simp [count], ?_, fun listing inside => ?_⟩
  · rw [List.map_append, List.map_append, List.map_singleton, List.map_singleton, missing_snoc,
      if_neg lacks, names]
    rfl
  · rcases List.mem_append.mp inside with inside | inside
    · exact (linked listing inside).mono fun _ present => present
    · rw [List.mem_singleton.mp inside]
      refine (listing_linked notified member).mono fun live present => ?_
      change live ∈ server.notifications
      rw [listed.notifications]
      exact present

theorem seedMonitors_list {done rest : List Monitor}
    (listed : Listed backup start between done created world.server)
    (notified : Notified start backup.notificationList map between)
    (all : backup.monitorList = done ++ rest) :
    During backup start
      (fun world counts => Listed backup start between backup.monitorList counts.1 world.server)
      (seedMonitors (start.monitors.map Listing.name) map created skipped rest) past world := by
  induction rest generalizing done created skipped past world with
  | nil =>
      rw [List.append_nil] at all
      rw [all]
      exact listed
  | cons monitor rest induction =>
      rw [seedMonitors]
      split
      · next live => exact induction (listed.skip live) (by simp [all])
      · next lacks =>
          have grown := listed.add notified (by simp [all]) lacks
          apply ask_bind
          rintro added after ⟨⟨_, step⟩, _⟩
          change Bool at added
          rcases step with took | ⟨refused, same⟩
          · rw [← took] at grown
            have split : backup.monitorList = done ++ [monitor] ++ rest := by simp [all]
            refine ⟨grown.extends notified split, ?_⟩
            cases added with
            | true => exact induction grown (by simp [all])
            | false => trivial
          · subst refused
            refine ⟨?_, trivial⟩
            rw [same]
            exact listed.extends notified all

structure Finished (backup : Backup Settings) (before : Server Settings) (created : Nat)
    (after : Server Settings) : Prop where
  complete : Complete backup after
  created : created + before.monitors.length = after.monitors.length

theorem Listed.finished (listed : Listed backup start between backup.monitorList created server)
    (notified : Notified start backup.notificationList map between) :
    Finished backup start created server := by
  rcases listed.added with ⟨added, grown, count, names, _⟩
  refine ⟨⟨?_, fun monitor member => ?_⟩, ?_⟩
  · rw [listed.notifications]
    exact notified.present
  · rw [grown, List.map_append, List.mem_append, names, missing, List.mem_filter]
    by_cases live : monitor.name ∈ start.monitors.map Listing.name
    · exact .inl live
    · exact .inr ⟨List.mem_map_of_mem member, by simpa using live⟩
  · rw [grown, List.length_append, count, Nat.add_comm]

/-- A whole run. -/
theorem seed_during (backup : Backup Settings) (numbered : world.server.Numbered) :
    During backup world.server
      (fun later counts => Finished backup world.server counts.1 later.server) (seed backup)
      past world := by
  apply ask_bind
  rintro connected opened ⟨rfl, _⟩
  change Bool at connected
  refine ⟨Extends.refl _ _, ?_⟩
  cases connected with
  | false => trivial
  | true =>
      apply ask_bind
      rintro loggedIn ready ⟨⟨same, _⟩, prompt⟩
      change Bool at loggedIn
      change ready.server = world.server at same
      change ready.pushed = ready.server at prompt
      refine ⟨same ▸ Extends.refl _ _, ?_⟩
      cases loggedIn with
      | false => trivial
      | true =>
          have notified : Notified world.server [] (fun _ => none) ready.server := by
            rw [same]
            exact .initial numbered
          have current : Current world.server ready := same ▸ .initial prompt
          refine Attempt.bind (seedNotifications_notify notified current rfl) ?_
          rintro past₁ world₁ map ⟨notified₁, current₁⟩
          apply ask_bind
          rintro live after ⟨⟨kept, pushes, told⟩, _⟩
          change List String at live
          have seen : Current world.server after :=
            current₁.pushes (by simp [kept]) (kept ▸ notified₁.monitors) pushes
          have still : Notified world.server backup.notificationList map after.server :=
            kept ▸ notified₁
          rw [seen.monitors] at told
          subst told
          refine ⟨still.extends (List.append_nil _).symm, ?_⟩
          have listed : Listed backup world.server after.server [] 0 after.server :=
            ⟨rfl, [], by simp [still.monitors, missing]⟩
          refine Attempt.result_mono (seedMonitors_list listed still rfl) ?_
          exact fun past₂ world₂ counts listed₂ => listed₂.finished still

/-! ## Runs one after the other -/

theorem missing_eq_nil {wanted live : List String} (known : ∀ name ∈ wanted, name ∈ live) :
    missing wanted live = [] := by
  rw [missing, List.filter_eq_nil_iff]
  intro name member
  simpa using known name member

/-- Where nothing is missing nothing changes. -/
theorem Extends.idle (extends_ : Extends backup start server) (complete : Complete backup start) :
    server = start := by
  rcases extends_.notifications with ⟨notifications, equal, few⟩
  rcases extends_.monitors with ⟨monitors, grown, some_, _⟩
  have wanted : ∀ name ∈ backup.notificationList.map Notification.name,
      name ∈ start.notifications.map Notification.name := by
    intro name member
    rcases List.mem_map.mp member with ⟨notification, inside, rfl⟩
    exact complete.notifications notification inside
  have listed : ∀ name ∈ backup.monitorList.map Monitor.name,
      name ∈ start.monitors.map Listing.name := by
    intro name member
    rcases List.mem_map.mp member with ⟨monitor, inside, rfl⟩
    exact complete.monitors monitor inside
  rw [missing_eq_nil wanted, List.sublist_nil, List.map_eq_nil_iff] at few
  rw [missing_eq_nil listed, List.sublist_nil, List.map_eq_nil_iff] at some_
  rw [few, List.append_nil] at equal
  rw [some_, List.append_nil] at grown
  rcases server with ⟨_, _⟩
  rcases start with ⟨_, _⟩
  simp only at equal grown
  rw [equal, grown]

theorem Extends.complete (extends_ : Extends backup start server)
    (complete : Complete backup start) : Complete backup server :=
  extends_.idle complete ▸ complete

/-- No name is live more often than it was or than the backup has it. -/
def AtMost (wanted before after : List String) : Prop :=
  ∀ name, (name ∈ before → after.count name = before.count name) ∧
    (name ∉ before → after.count name ≤ wanted.count name)

theorem AtMost.grow {wanted before between added : List String}
    (most : AtMost wanted before between) (kept : ∀ name ∈ before, name ∈ between)
    (few : added.Sublist (missing wanted between)) : AtMost wanted before (between ++ added) := by
  intro name
  have none : name ∈ between → added.count name = 0 := by
    intro live
    rw [List.count_eq_zero]
    intro member
    have lacks := (List.mem_filter.mp (few.subset member)).2
    simp [live] at lacks
  have bounded : added.count name ≤ wanted.count name :=
    Nat.le_trans (few.count_le name) (List.filter_sublist.count_le name)
  rw [List.count_append]
  refine ⟨fun live => ?_, fun lacks => ?_⟩
  · rw [none (kept name live), (most name).1 live, Nat.add_zero]
  · by_cases live : name ∈ between
    · rw [none live, Nat.add_zero]
      exact (most name).2 lacks
    · rw [List.count_eq_zero.mpr live, Nat.zero_add]
      exact bounded

structure Seeded (backup : Backup Settings) (before after : Server Settings) : Prop where
  notifications : ∃ added, after.notifications = before.notifications ++ added
  monitors : ∃ added, after.monitors = before.monitors ++ added ∧
    ∀ listing ∈ added, Linked backup after listing
  notificationNames : AtMost (backup.notificationList.map Notification.name)
    (before.notifications.map Notification.name) (after.notifications.map Notification.name)
  monitorNames : AtMost (backup.monitorList.map Monitor.name)
    (before.monitors.map Listing.name) (after.monitors.map Listing.name)
  numbered : before.Numbered → after.Numbered

theorem Seeded.refl (backup : Backup Settings) (server : Server Settings) :
    Seeded backup server server :=
  ⟨⟨[], by simp⟩, ⟨[], by simp⟩, fun _ => ⟨fun _ => rfl, fun lacks =>
    by simp [List.count_eq_zero.mpr lacks]⟩, fun _ => ⟨fun _ => rfl, fun lacks =>
    by simp [List.count_eq_zero.mpr lacks]⟩, id⟩

theorem Seeded.extend (seeded : Seeded backup start between)
    (extends_ : Extends backup between server) : Seeded backup start server := by
  rcases seeded.notifications with ⟨early, earlier⟩
  rcases seeded.monitors with ⟨listed, before, linked⟩
  rcases extends_.notifications with ⟨late, later, few⟩
  rcases extends_.monitors with ⟨more, after, some_, linkedMore⟩
  refine ⟨⟨early ++ late, by simp [later, earlier]⟩, ⟨listed ++ more, by simp [after, before],
    fun listing member => ?_⟩, ?_, ?_, fun numbered => extends_.numbered (seeded.numbered numbered)⟩
  · rcases List.mem_append.mp member with member | member
    · refine (linked listing member).mono fun live present => ?_
      rw [later]
      exact List.mem_append_left _ present
    · exact linkedMore listing member
  · rw [later, List.map_append]
    refine seeded.notificationNames.grow (fun name member => ?_) few
    rw [earlier, List.map_append]
    exact List.mem_append_left _ member
  · rw [after, List.map_append]
    refine seeded.monitorNames.grow (fun name member => ?_) some_
    rw [before, List.map_append]
    exact List.mem_append_left _ member

theorem extends_after
    {post : Past (interface Settings) (World Settings) → World Settings → α → Prop}
    {program : Program (interface Settings) α} {final : World Settings} {outcome : Option α}
    {moments : List (Moment (interface Settings) (World Settings))}
    (guarded : Guarded (system.restrict Prompt)
      (fun _ moment => Extends backup start moment.after.server) post program past world)
    (starts : Extends backup start world.server)
    (execution : Executes (system.restrict Prompt) program world moments final outcome) :
    Extends backup start final.server := by
  induction execution generalizing past with
  | killed => exact starts
  | done => exact starts
  | call step rest induction =>
      rcases guarded _ _ step with ⟨kept, remaining⟩
      exact induction remaining kept

end

variable {backup : Backup Settings} {initial final : World Settings}
  {runs : List (SeedRun Settings)} {run : SeedRun Settings}

theorem run_seeds (valid : run.Valid (system.restrict Prompt) fun backup => (seed backup).run)
    (numbered : run.before.server.Numbered) :
    Extends run.parameter run.before.server run.after.server ∧
      ∀ counts, run.outcome = some (.ok counts) →
        Finished run.parameter run.before.server counts.1 run.after.server := by
  have guarded : During run.parameter run.before.server
      (fun later counts => Finished run.parameter run.before.server counts.1 later.server)
      (seed run.parameter) [] run.before := seed_during run.parameter numbered
  refine ⟨extends_after guarded (Extends.refl _ _) valid, fun counts ended => ?_⟩
  rw [Run.Valid, ended] at valid
  exact Effects.Guarded.result guarded valid

theorem history_seeds
    (history : History (system.restrict Prompt) (fun backup => (seed backup).run) initial runs
      final)
    (same : ∀ run ∈ runs, run.parameter = backup) (numbered : initial.server.Numbered) :
    Seeded backup initial.server final.server ∧
      (∀ run ∈ runs, Extends backup run.before.server run.after.server ∧
        ∀ counts, run.outcome = some (.ok counts) →
          Finished backup run.before.server counts.1 run.after.server) ∧
      ((∃ run ∈ runs, ∃ counts, run.outcome = some (.ok counts)) →
        Complete backup final.server) := by
  induction history with
  | start => exact ⟨Seeded.refl _ _, by simp, by simp⟩
  | @next runs middle earlier run continues valid induction =>
      subst continues
      rcases induction fun run member => same run (by simp [member]) with ⟨seeded, each, complete⟩
      have own := run_seeds valid (seeded.numbered numbered)
      rw [same run (by simp)] at own
      refine ⟨seeded.extend own.1, fun other member => ?_, ?_⟩
      · rcases List.mem_append.mp member with member | member
        · exact each other member
        · rw [List.mem_singleton.mp member]
          exact own
      · rintro ⟨other, member, counts, ended⟩
        rcases List.mem_append.mp member with member | member
        · exact own.1.complete (complete ⟨other, member, counts, ended⟩)
        · rw [List.mem_singleton.mp member] at ended
          exact (own.2 counts ended).complete

/-- Seeding may fail or be cut off anywhere, and be started again. What is live stays, nothing is
added twice, and once a run has come to its end nothing is missing and further runs change
nothing. -/
theorem seeding_converges (history : Seeds initial runs final)
    (prompt : ∀ moment ∈ Run.momentsOf runs, Prompt moment)
    (same : ∀ run ∈ runs, run.parameter = backup) (numbered : initial.server.Numbered) :
    Seeded backup initial.server final.server ∧
      (∀ run ∈ runs, ∀ counts, run.outcome = some (.ok counts) →
        Finished backup run.before.server counts.1 run.after.server) ∧
      ((∃ run ∈ runs, ∃ counts, run.outcome = some (.ok counts)) →
        Complete backup final.server) ∧
      ∀ run ∈ runs, Complete backup run.before.server → run.after.server = run.before.server := by
  rcases history_seeds (history.restrict prompt) same numbered with ⟨seeded, each, complete⟩
  exact ⟨seeded, fun run member => (each run member).2, complete,
    fun run member => (each run member).1.idle⟩

/-! ## An answer that is lost -/

/-- A server that does what it is asked and pushes at once. Where it is `lossy` no answer to `add`
arrives. -/
def steadyServer (lossy : Bool) : Oracle (interface Unit) (World Unit) :=
  fun _ world operation =>
    match operation with
    | .connect => (true, ⟨world.server, .empty⟩)
    | .login => (true, ⟨world.server, world.server⟩)
    | .notificationList => (world.server.notifications, ⟨world.server, world.server⟩)
    | .monitorNames => (world.server.monitors.map Listing.name, ⟨world.server, world.server⟩)
    | .addNotification name settings =>
        let id := world.server.notifications.length + 1
        if world.server.notifications.all (·.id ≠ id) then
          let server := world.server.notify id name settings
          (some id, ⟨server, server⟩)
        else (none, world)
    | .add listing =>
        let server := world.server.list listing
        (!lossy, ⟨server, server⟩)

theorem steadyServer_permitted (lossy : Bool) : Permitted system (steadyServer lossy) := by
  intro past world operation
  cases operation with
  | connect => rfl
  | login => exact ⟨rfl, .inr rfl⟩
  | notificationList => exact ⟨rfl, .inr rfl, rfl⟩
  | monitorNames => exact ⟨rfl, .inr rfl, rfl⟩
  | addNotification name settings =>
      by_cases fresh : world.server.notifications.all
          (·.id ≠ world.server.notifications.length + 1) = true
      · have free : world.server.Fresh (world.server.notifications.length + 1) :=
          ⟨Nat.succ_ne_zero _, fun other member => by
            simpa using List.all_eq_true.mp fresh other member⟩
        simp only [steadyServer, if_pos fresh]
        exact ⟨.inr rfl, free, rfl⟩
      · simp only [steadyServer, if_neg fresh]
        exact ⟨.inl rfl, .inl rfl⟩
  | add listing => exact ⟨.inr rfl, .inl rfl⟩

theorem steadyServer_prompt (lossy : Bool) (past : Past (interface Unit) (World Unit))
    (world : World Unit) (operation : Operation Unit) :
    Prompt ⟨world, operation, (steadyServer lossy past world operation).1,
      (steadyServer lossy past world operation).2⟩ := by
  cases operation <;> trivial

def sampleMonitor : Monitor :=
  ⟨some "http", "grafana", some "http://grafana", none, none, none, none, none, none, none, none,
    [1]⟩

def sampleBackup : Backup Unit := ⟨[⟨1, "ntfy", ()⟩], [sampleMonitor]⟩

def sampleSeed (lossy : Bool) (before : World Unit) : SeedRun Unit :=
  let run := simulate (steadyServer lossy) 10 (seed sampleBackup).run [] before
  ⟨sampleBackup, before, run.1, run.2.1, run.2.2⟩

/-- The monitor is added, but the script is not told. -/
def firstSeed : SeedRun Unit := sampleSeed true ⟨.empty, .empty⟩

def secondSeed : SeedRun Unit := sampleSeed false firstSeed.after

/-- The first run fails at its monitor, and the second one finds it and adds nothing. -/
theorem seeding_converges_lossy :
    firstSeed.outcome = some (.error "add grafana") ∧ secondSeed.outcome = some (.ok (0, 1)) ∧
      Complete sampleBackup secondSeed.after.server ∧
      secondSeed.after.server.monitors.length = 1 := by
  have valid (lossy : Bool) (before : World Unit) :
      (sampleSeed lossy before).Valid system fun backup => (seed backup).run :=
    simulate_executes (steadyServer_permitted lossy) _ _ _ _
  have seeds : Seeds ⟨.empty, .empty⟩ [firstSeed, secondSeed] secondSeed.after :=
    .next (.next .start firstSeed rfl (valid _ _)) secondSeed rfl (valid _ _)
  have prompt : ∀ moment ∈ Run.momentsOf [firstSeed, secondSeed], Prompt moment := by
    intro moment member
    rcases List.mem_flatMap.mp member with ⟨run, among, inside⟩
    simp only [List.mem_cons, List.not_mem_nil, or_false] at among
    rcases among with rfl | rfl
    · exact simulate_each (steadyServer_prompt _) _ _ _ _ moment inside
    · exact simulate_each (steadyServer_prompt _) _ _ _ _ moment inside
  have same : ∀ run ∈ [firstSeed, secondSeed], run.parameter = sampleBackup := by
    simp [firstSeed, secondSeed, sampleSeed]
  have numbered : (Server.empty : Server Unit).Numbered := by
    simp [Server.Numbered, Server.empty]
  have converges := seeding_converges seeds prompt same numbered
  have ended : secondSeed.outcome = some (.ok (0, 1)) := by rfl
  have complete := converges.2.2.1 ⟨secondSeed, by simp, _, ended⟩
  have finished := converges.2.1 secondSeed (by simp) _ ended
  have listed : secondSeed.before.server.monitors.length = 1 := by rfl
  exact ⟨by rfl, ended, complete, by rw [← finished.created, listed]⟩

end Homelab.UptimeKuma
