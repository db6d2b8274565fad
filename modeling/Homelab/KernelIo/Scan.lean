import Homelab.Foundation.Decimal
import Homelab.Foundation.Pattern

/-! # The kernel-log scanner

Kernel-log lines are classified and counted, and the counts are rendered as metrics. The
file that one scan writes is what the next one reads, to keep the counts of the boot that
ended. Lines are UTF-8 here, and times whole seconds.
-/

namespace Homelab.KernelIo

open Text

/-! ## Classes -/

inductive FaultClass
  | ext4RemountRo
  | scsiOffline
  | diskZeroCapacity
  | ext4Error
  | journalAborted
  | blockIoError
  | uasFault
  | usbDisconnect
  | usbReset
  | usbOverCurrent
deriving DecidableEq, Repr

namespace FaultClass

def name : FaultClass → String
  | ext4RemountRo => "ext4_remount_ro"
  | scsiOffline => "scsi_offline"
  | diskZeroCapacity => "disk_zero_capacity"
  | ext4Error => "ext4_error"
  | journalAborted => "journal_aborted"
  | blockIoError => "block_io_error"
  | uasFault => "uas_fault"
  | usbDisconnect => "usb_disconnect"
  | usbReset => "usb_reset"
  | usbOverCurrent => "usb_over_current"

open Pattern in
def pattern : FaultClass → Pattern
  | ext4RemountRo => text "remounting filesystem read-only"
  | scsiOffline => anyOf [
      text "rejecting i/o to offline device",
      text "synchronizing scsi cache failed",
      text "device offline",
      all [text "failed to ", anyOf [text "get", text "set"], text " sense data"]]
  | diskZeroCapacity => anyOf [
      all [text "read capacity(", digits, text ") failed"],
      all [boundary, text "0 ", digits, text "-byte logical blocks", boundary],
      text "0-byte physical blocks"]
  | ext4Error => all [text "ext4-fs ", anyOf [text "error", text "warning (device"]]
  | journalAborted => anyOf [text "journal has aborted", text "aborting journal"]
  | blockIoError => anyOf [
      text "buffer i/o error",
      text "blk_update_request",
      all [text "critical ", anyOf [text "medium", text "target"], text " error"],
      all [boundary, text "i/o error", boundary]]
  | uasFault => anyOf [
      all [text "uas_eh_", anyOf [text "abort", text "device_reset", text "bus_reset"],
        text "_handler"],
      all [text "uas: ", anyOf [text "reset", text "cmd cmplt err"]],
      all [text "scsi host ", digits, text ": uas_eh"]]
  | usbDisconnect => all [text "usb ", visible, text ": usb disconnect"]
  | usbReset => anyOf [
      all [text "reset ", anyOf [text "super", text "high", text "full", text "low"],
        optional (char fun own => own = '-' ∨ own = ' '), text "speed usb device"],
      all [text "device descriptor read/", digits, text ", error"],
      text "device not accepting address"]
  | usbOverCurrent => all [text "over", optional (text "-"), text "current ",
      anyOf [text "change", text "condition"]]

end FaultClass

open FaultClass

/-- The classes in the order of their patterns, most specific first. -/
def classes : List FaultClass :=
  [ext4RemountRo, scsiOffline, diskZeroCapacity, ext4Error, journalAborted, blockIoError,
    uasFault, usbDisconnect, usbReset, usbOverCurrent]

def sortedClasses : List FaultClass :=
  [blockIoError, diskZeroCapacity, ext4Error, ext4RemountRo, journalAborted, scsiOffline,
    uasFault, usbDisconnect, usbOverCurrent, usbReset]

def severityOf : FaultClass → String
  | ext4RemountRo => "fatal"
  | scsiOffline => "fatal"
  | ext4Error => "fatal"
  | journalAborted => "fatal"
  | blockIoError => "fatal"
  | diskZeroCapacity => "fatal"
  | usbDisconnect => "dropout"
  | usbOverCurrent => "dropout"
  | uasFault => "precursor"
  | usbReset => "precursor"

/-- The fault class of a kernel-log line: the first one whose pattern is found. -/
def classify (line : Line) : Option FaultClass :=
  classes.find? fun class_ => class_.pattern.search line

example : classify "usb 2-1: USB disconnect, device number 2".toList = some usbDisconnect := by
  decide +kernel

abbrev Counts := FaultClass → Int

def zeros : Counts := fun _ => 0

def Counts.set (counts : Counts) (class_ : FaultClass) (value : Int) : Counts :=
  fun other => if other = class_ then value else counts other

def scan (log : List Line) : Counts :=
  log.foldl
    (fun counts line =>
      match classify line with
      | some class_ => counts.set class_ (counts class_ + 1)
      | none => counts)
    zeros

/-! ## Rendering -/

def comment (text : String) : Line := "# ".toList ++ text.toList

def labels (class_ : FaultClass) : Line :=
  '\x7b' :: "class=\"".toList ++ class_.name.toList ++ "\",severity=\"".toList ++
    (severityOf class_).toList ++ ['"', '\x7d', ' ']

/-- The name of the live series. -/
@[irreducible] def series : Line := "homelab_kernel_io_events".toList

/-- What the name of the snapshot's series adds. -/
@[irreducible] def suffix : Line := "_last_boot".toList

/-- What stands before the boot id. -/
@[irreducible] def bootIdMark : Line := "homelab_kernel_io_boot_id_info\x7bboot_id=\"".toList

@[irreducible] def timestampMark : Line := "homelab_kernel_io_scan_timestamp_seconds ".toList

def eventLine (class_ : FaultClass) (value : Int) : Line :=
  series ++ labels class_ ++ (toString value).toList

def lastBootLine (class_ : FaultClass) (value : Int) : Line :=
  series ++ suffix ++ labels class_ ++ (toString value).toList

def bootIdLine (bootId : String) : Line :=
  bootIdMark ++ bootId.toList ++ ['"', '\x7d', ' ', '1']

def eventLines (counts : Counts) : List Line :=
  [comment "HELP homelab_kernel_io_events Kernel storage-fault log lines seen this boot.",
    comment "TYPE homelab_kernel_io_events gauge"] ++
  sortedClasses.map fun class_ => eventLine class_ (counts class_)

def lastBootLines (lastBoot : Counts) : List Line :=
  [comment ("HELP homelab_kernel_io_events_last_boot Kernel storage-fault log " ++
      "lines seen during the PREVIOUS boot (survives the reboot that resets the live series)."),
    comment "TYPE homelab_kernel_io_events_last_boot gauge"] ++
  sortedClasses.map fun class_ => lastBootLine class_ (lastBoot class_)

def bootIdLines (bootId : String) : List Line :=
  [comment ("HELP homelab_kernel_io_boot_id_info Current boot id; a change " ++
      "marks a reboot and promotes the live counts to _last_boot."),
    comment "TYPE homelab_kernel_io_boot_id_info gauge",
    bootIdLine bootId]

def timestampLines (now : Nat) : List Line :=
  [comment ("HELP homelab_kernel_io_scan_timestamp_seconds " ++
      "Unix time of the last successful scan."),
    comment "TYPE homelab_kernel_io_scan_timestamp_seconds gauge",
    timestampMark ++ (toString now).toList]

/-- Render the textfile-collector exposition for the counts. -/
def renderProm (counts : Counts) (now : Nat) (bootId : Option String)
    (lastBoot : Option Counts) : List Line :=
  eventLines counts ++ (lastBoot.map lastBootLines).getD [] ++
    (bootId.map bootIdLines).getD [] ++ timestampLines now

/-! ## Reading back -/

/-- What `float` makes of a decimal number. -/
structure Floats where
  round : ℚ → ℚ
  exact : ∀ value : Int, |value| ≤ 2 ^ 53 → round value = value

/-- `class="…"` as far right as it stands. -/
def lastClass : Line → Option Line
  | [] => none
  | char :: rest =>
      match lastClass rest with
      | some class_ => some class_
      | none =>
          if "class=\"".toList.isPrefixOf (char :: rest) then
            match ((char :: rest).drop 7).span fun own =>
              ('a' ≤ own ∧ own ≤ 'z') ∨ own.isDigit ∨ own = '_' with
            | ([], _) => none
            | (class_, '"' :: _) => some class_
            | _ => none
          else none

def scanDecimals (line : Line) : Line × Line :=
  match line with
  | '.' :: rest =>
      match rest.span isDecimal with
      | ([], _) => ([], line)
      | found => found
  | _ => ([], line)

/-- `-?\d+(?:\.\d+)?\s*`, up to the end of the line. -/
def readValue (line : Line) : Option ℚ :=
  let (sign, line) : ℚ × Line :=
    match line with
    | '-' :: rest => (-1, rest)
    | line => (1, line)
  match line.span isDecimal with
  | ([], _) => none
  | (digits, rest) =>
      let (decimals, rest) := scanDecimals rest
      if rest.all isSpace then
        some (sign * decimalOf (digits ++ decimals) / 10 ^ decimals.length)
      else none

example : readValue "-12.5 ".toList = some (-25 / 2) := by decide +kernel

def stripPrefix (start line : Line) : Option Line :=
  if start.isPrefixOf line then some (line.drop start.length) else none

/-- One exposition line of either events series: whether it is the snapshot's, the class
and the value. -/
def readEvent (line : Line) : Option (Bool × Line × ℚ) := do
  let rest ← stripPrefix series line
  let (snapshot, rest) : Bool × Line :=
    match stripPrefix suffix rest with
    | some rest => (true, rest)
    | none => (false, rest)
  let rest ← stripPrefix ['\x7b'] rest
  let (labels, rest) := rest.span (· ≠ '\x7d')
  let class_ ← lastClass labels
  match rest with
  | '\x7d' :: space :: rest =>
      if isSpace space then
        let value ← readValue (rest.dropWhile isSpace)
        return (snapshot, class_, value)
      else none
  | _ => none

def readBootId (line : Line) : Option Line := do
  let rest ← stripPrefix bootIdMark line
  let (bootId, rest) := rest.span (· ≠ '"')
  if ['"', '\x7d'].isPrefixOf rest then some bootId else none

structure Previous where
  bootId : Option String
  counts : Counts
  lastBoot : Counts

def Previous.initial : Previous where
  bootId := none
  counts := zeros
  lastBoot := zeros

def readLine (floats : Floats) (previous : Previous) (line : Line) : Previous :=
  match readBootId line with
  | some bootId => { previous with bootId := some (.ofList bootId) }
  | none =>
      match readEvent line with
      | none => previous
      | some (snapshot, name, value) =>
          match classes.find? fun class_ => class_.name.toList = name with
          | none => previous
          | some class_ =>
              let value := Python.trunc (floats.round value)
              if snapshot then { previous with lastBoot := previous.lastBoot.set class_ value }
              else { previous with counts := previous.counts.set class_ value }

def parseProm (floats : Floats) (text : List Char) : Previous :=
  (lines text).foldl (readLine floats) .initial

/-- Decide the `_last_boot` counts to emit for this scan. -/
def carryForward (previous : Previous) (currentBootId : String) : Counts :=
  match previous.bootId with
  | none => previous.lastBoot
  | some bootId =>
      if currentBootId = "" ∨ bootId = "" then previous.lastBoot
      else if bootId ≠ currentBootId then previous.counts
      else previous.lastBoot

/-! ## Scans -/

structure Scan where
  /-- Empty when it cannot be read. -/
  bootId : String
  log : List Line
  now : Nat

/-- The scanner's `main`: the text it writes, given the previous file. -/
def main (floats : Floats) (scanned : Scan) (previous : Option (List Char)) : List Char :=
  if scanned.bootId = "" then joined (renderProm (scan scanned.log) scanned.now none none)
  else
    let lastBoot := carryForward (parseProm floats (previous.getD [])) scanned.bootId
    joined (renderProm (scan scanned.log) scanned.now (some scanned.bootId) (some lastBoot))

/-- A run of the wrapper. One that fails, at `dmesg` or at any step of writing the file,
leaves the file alone. -/
inductive Event
  | scanned (scan : Scan)
  | failed

def step (floats : Floats) (file : Option (List Char)) : Event → Option (List Char)
  | .scanned scan => some (main floats scan file)
  | .failed => file

def fileAfter (floats : Floats) (history : List Event) : Option (List Char) :=
  history.foldl (step floats) none

end Homelab.KernelIo
