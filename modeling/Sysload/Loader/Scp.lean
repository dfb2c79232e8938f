import Sysload.Config
import Sysload.UiControl

/-!
# The scp loader module (`cl_scp.c`)

`comp_load()` starts a loader module with the name of the local copy and the URI as its arguments.
`cl_scp` takes them the other way round, and its copy loop writes only when a read has failed.

* The SSH library, the password file and the local file system are parameters (`World`).
* A local file is known by its number: two names may denote one file.
* A `write` of a negative number of bytes is one of more than `SSIZE_MAX` bytes, which is refused.
* The module's messages for the system log are left out, and with them its count of bytes.

Source: `src/comploader/cl_scp.c`, `main` with `struct ssh_param`. Out of scope are `connect_ssh`,
`open_remote` and `open_local`.

Results:
* `copyLoop_data`: the copy loop writes nothing.
* **`meetsContract_iff`**: when the module does what `comp_load` relies on.
* `main_localDest`: with a destination that is no scp URI the module fails.
-/

namespace Sysload.Scp

open UiControl (WaitStatus)

/-! ## Arguments -/

/-- `struct ssh_param`. -/
structure SshParam where
  user : CStr
  pw : Option CStr
  host : CStr
  port : CStr
  path : CStr
  deriving DecidableEq, Repr

/-- `strchr`, and the string cut there: what is before the first `c`, and what is behind it. -/
def cut (c : Char) (str : CStr) : Option (CStr × CStr) :=
  match str.span fun x => x != c with
  | (before, _ :: behind) => some (before, behind)
  | (_, []) => none

/-- `decode_parameters`: `ok none` for the return value `NULL`. `loginName` is the name of the user
in the password file; without an entry there the function crashes. -/
def decodeParameters (loginName : Option CStr) (input : CStr) :
    Except WaitStatus (Option SshParam) :=
  if input.take 6 ≠ "scp://".toList then .ok none
  else
    let rest := input.drop 6
    let (user, pw, rest) :=
      match cut '@' rest with
      | some (userinfo, behind) =>
        match cut ':' userinfo with
        | some (user, pw) => (some user, some pw, behind)
        | none => (some userinfo, none, behind)
      | none => (none, none, rest)
    match cut '/' rest with
    | none => .ok none
    | some (hostport, path) =>
      let (host, port) :=
        match cut ':' hostport with
        | some (host, port) => (host, port)
        | none => (hostport, "22".toList)
      let host := if hostport = [] then "localhost".toList else host
      match user, loginName with
      | some user, _ | none, some user => .ok (some ⟨user, pw, host, port, path⟩)
      | none, none => .error .signaled

/-- The arguments with which `comp_load` starts a loader module. -/
def compLoadArgv (module dest uri : CStr) : List CStr := [module, dest, uri]

/-! ## The module -/

/-- The length of the buffer. -/
def len : Nat := 255

/-- The world around the module: the name of its user, the numbers of local files, whether `connect_ssh`
and `open_local` succeed, the content of the remote file that `open_remote` opens, and what a call of
`sftp_read` at an offset does: it fails with a negative number, or delivers at least one byte, if
there is one left, and at most as many as fit into the buffer. -/
structure World where
  loginName : Option CStr
  node : CStr → Nat
  connectSsh : SshParam → Bool
  openLocal : CStr → Bool
  openRemote : SshParam → Option (List Char)
  sftpRead : Nat → Except { e : Int // e < 0 } { n : Nat // 0 < n ∧ n ≤ len }

/-- The local files, by their numbers. -/
abbrev Files := Nat → Option (List Char)

variable (w : World)

/-- `rcvd`: what `sftp_read` returns at an offset, where `rest` is left of the file. -/
def received (offset : Nat) (rest : List Char) : Int :=
  match w.sftpRead offset with
  | .error e => e
  | .ok n => (min n.1 rest.length : Nat)

/-- `write`, of `count` bytes of a buffer to the end of a file. -/
def write (data buffer : List Char) (count : Int) : List Char :=
  if count < 0 then data else data ++ buffer.take count.toNat

theorem le_length_of_received {offset : Nat} {rest : List Char} (h : received w offset rest = len) :
    len ≤ rest.length := by
  unfold received at h
  cases hread : w.sftpRead offset with
  | error e =>
    rw [hread] at h
    have := e.2
    simp only at h
    omega
  | ok n =>
    rw [hread] at h
    simp only at h
    omega

/-- The copy loop: it returns the content of the local file, and the last value of `rcvd`. -/
def copyLoop (offset : Nat) (rest data : List Char) : List Char × Int :=
  let rcvd := received w offset rest
  let data := if rcvd = -1 then write data rest rcvd else data
  if _h : rcvd = len then copyLoop (offset + len) (rest.drop len) data else (data, rcvd)
  termination_by rest.length
  decreasing_by
    have hle := le_length_of_received w _h
    rw [List.length_drop]
    unfold len at *
    omega

/-- How the module ends: its status, the local files, and the last value of `rcvd`, if it has come to
the copy loop. -/
structure Exit where
  status : WaitStatus
  files : Files
  rcvd : Option Int

/-- `main` of `cl_scp`. -/
def main (files : Files) (argv : List CStr) : Exit :=
  match argv with
  | [_, source, dest] =>
    match decodeParameters w.loginName source with
    | .error status => ⟨status, files, none⟩
    | .ok none => ⟨.exited 1, files, none⟩
    | .ok (some srvConn) =>
      if w.connectSsh srvConn = false then ⟨.exited 2, files, none⟩
      else if w.openLocal dest = false then ⟨.exited 3, files, none⟩
      else
        match w.openRemote srvConn with
        | none => ⟨.exited 4, Function.update files (w.node dest) (some []), none⟩
        | some content =>
          let (data, rcvd) := copyLoop w 0 content []
          ⟨.exited 0, Function.update files (w.node dest) (some data), some rcvd⟩
  | _ => ⟨.exited 1, files, none⟩

/-! ## The contract of a loader module -/

/-- The content of the file that a URI denotes. -/
def remoteFile (uri : CStr) : Option (List Char) :=
  match decodeParameters w.loginName uri with
  | .ok (some srvConn) => w.openRemote srvConn
  | .ok none | .error _ => none

/-- What `comp_load` relies on: when the module exits with status 0, the local copy has the content of
the file that the URI denotes, and after an error in the copy loop the status is another one. -/
def MeetsContract (files : Files) (module dest uri : CStr) : Prop :=
  ((main w files (compLoadArgv module dest uri)).status = .exited 0 →
    ∃ content, remoteFile w uri = some content ∧
      (main w files (compLoadArgv module dest uri)).files (w.node dest) = some content) ∧
  ∀ rcvd, (main w files (compLoadArgv module dest uri)).rcvd = some rcvd → rcvd < 0 →
    (main w files (compLoadArgv module dest uri)).status ≠ .exited 0

/-- One of the reads that are made from an offset on fails. -/
inductive World.ReadFails : Nat → List Char → Prop
  | now {offset : Nat} {rest : List Char} {e : { e : Int // e < 0 }} :
    w.sftpRead offset = .error e → ReadFails offset rest
  | later {offset : Nat} {rest : List Char} : received w offset rest = len →
    ReadFails (offset + len) (rest.drop len) → ReadFails offset rest

/-- The module comes to the copy loop: its first argument is a URI of a file that can be opened with
this content, and its second one a local file that can be opened. -/
def World.SetUp (dest uri : CStr) (content : List Char) : Prop :=
  ∃ srvConn, decodeParameters w.loginName dest = .ok (some srvConn) ∧
    w.connectSsh srvConn = true ∧ w.openLocal uri = true ∧ w.openRemote srvConn = some content

variable {w}

/-- **The copy loop writes nothing.** -/
theorem copyLoop_data (offset : Nat) (rest data : List Char) :
    (copyLoop w offset rest data).1 = data := by
  have hwrite : ∀ rcvd : Int, (if rcvd = -1 then write data rest rcvd else data) = data := by
    intro rcvd
    by_cases h : rcvd = -1
    · rw [if_pos h, h]
      rfl
    · rw [if_neg h]
  unfold copyLoop
  simp only [hwrite]
  by_cases h : received w offset rest = len
  · rw [dif_pos h]
    exact copyLoop_data (offset + len) (rest.drop len) data
  · rw [dif_neg h]
  termination_by rest.length
  decreasing_by
    have hle := le_length_of_received w h
    rw [List.length_drop]
    unfold len at *
    omega

/-- The loop ends with a negative number if a read fails. -/
theorem copyLoop_rcvd (offset : Nat) (rest data : List Char) :
    (copyLoop w offset rest data).2 < 0 ↔ w.ReadFails offset rest := by
  unfold copyLoop
  by_cases h : received w offset rest = len
  · have hnot : ∀ e, w.sftpRead offset ≠ .error e := by
      intro e he
      have hneg := e.2
      rw [received, he] at h
      simp only at h
      omega
    simp only [dif_pos h]
    rw [copyLoop_rcvd (offset + len) (rest.drop len)]
    constructor
    · exact .later h
    · intro hfails
      cases hfails with
      | now he => exact absurd he (hnot _)
      | later _ hfails => exact hfails
  · simp only [dif_neg h]
    constructor
    · intro hneg
      cases hread : w.sftpRead offset with
      | error e => exact .now hread
      | ok n =>
        rw [received, hread] at hneg
        exact absurd hneg (Int.not_lt.mpr (Int.natCast_nonneg _))
    · intro hfails
      cases hfails with
      | now he =>
        rename_i e
        rw [received, he]
        exact e.2
      | later h' _ => exact absurd h' h
  termination_by rest.length
  decreasing_by
    have hle := le_length_of_received w h
    rw [List.length_drop]
    unfold len at *
    omega

/-- Behind the copy loop the status is 0, the file of the URI's name is empty, and the files are
otherwise as they were. -/
theorem main_setUp {files : Files} {module dest uri : CStr} {content : List Char}
    (h : w.SetUp dest uri content) :
    main w files (compLoadArgv module dest uri) =
      ⟨.exited 0, Function.update files (w.node uri) (some []),
        some (copyLoop w 0 content []).2⟩ := by
  obtain ⟨srvConn, hdecode, hconnect, hlocal, hremote⟩ := h
  simp [main, compLoadArgv, hdecode, hconnect, hlocal, hremote, copyLoop_data]

/-- The arguments are the reason of a crash, not of another end. -/
theorem decodeParameters_error {loginName : Option CStr} {input : CStr} {status : WaitStatus}
    (h : decodeParameters loginName input = .error status) : status = .signaled := by
  unfold decodeParameters at h
  split at h
  · cases h
  · dsimp only at h
    split at h
    · cases h
    · split at h
      · cases h
      · cases h
      · cases h
        rfl

/-- **Before the copy loop every end is a failure.** -/
theorem main_not_setUp {files : Files} {module dest uri : CStr}
    (h : ¬ ∃ content, w.SetUp dest uri content) :
    (main w files (compLoadArgv module dest uri)).status ≠ .exited 0 := by
  unfold main compLoadArgv
  cases hdecode : decodeParameters w.loginName dest with
  | error status =>
    simp [hdecode, decodeParameters_error hdecode]
  | ok srvConn =>
    cases srvConn with
    | none => simp [hdecode]
    | some srvConn =>
      simp only [hdecode]
      by_cases hconnect : w.connectSsh srvConn = false
      · simp [hconnect]
      by_cases hlocal : w.openLocal uri = false
      · simp [hconnect, hlocal]
      rw [if_neg hconnect, if_neg hlocal]
      cases hremote : w.openRemote srvConn with
      | none => simp
      | some content =>
        exact absurd ⟨content, srvConn, hdecode, by simpa using hconnect, by simpa using hlocal,
          hremote⟩ h

/-- **The scp loader module meets the contract** if it does not come to its copy loop, or if no read
fails there and the local copy has the right content without it: it had that before, or the remote
file is empty and the local file is the one that was opened. -/
theorem meetsContract_iff (files : Files) (module dest uri : CStr) :
    MeetsContract w files module dest uri ↔
      ∀ content, w.SetUp dest uri content → ¬ w.ReadFails 0 content ∧
        ∃ remote, remoteFile w uri = some remote ∧
          ((w.node dest = w.node uri ∧ remote = []) ∨
            (w.node dest ≠ w.node uri ∧ files (w.node dest) = some remote)) := by
  by_cases hsetUp : ∃ content, w.SetUp dest uri content
  · obtain ⟨content, hcontent⟩ := hsetUp
    have hmain := @main_setUp w files module dest uri content hcontent
    have hsame : ∀ content', w.SetUp dest uri content' → content' = content := by
      rintro content' ⟨srvConn', hdecode', _, _, hremote'⟩
      obtain ⟨srvConn, hdecode, _, _, hremote⟩ := hcontent
      obtain rfl := Option.some.inj (Except.ok.inj (hdecode'.symm.trans hdecode))
      exact Option.some.inj (hremote'.symm.trans hremote)
    have hfile : ∀ remote, Function.update files (w.node uri) (some []) (w.node dest) = some remote ↔
        (w.node dest = w.node uri ∧ remote = []) ∨
          (w.node dest ≠ w.node uri ∧ files (w.node dest) = some remote) := by
      intro remote
      by_cases heq : w.node dest = w.node uri
      · rw [heq, Function.update_self]
        simp [eq_comm]
      · rw [Function.update_of_ne heq]
        simp [heq]
    unfold MeetsContract
    rw [hmain]
    simp only [hfile, Option.some.injEq, ne_eq, not_true_eq_false, forall_const, imp_false]
    constructor
    · rintro ⟨hcopy, hread⟩ content' hcontent'
      rw [hsame content' hcontent']
      exact ⟨fun hfails => hread _ rfl ((copyLoop_rcvd 0 content []).mpr hfails), hcopy⟩
    · intro h
      obtain ⟨hread, hcopy⟩ := h content hcontent
      exact ⟨hcopy, fun rcvd hrcvd hneg => hread ((copyLoop_rcvd 0 content []).mp (hrcvd ▸ hneg))⟩
  · have hmain := @main_not_setUp w files module dest uri hsetUp
    constructor
    · exact fun _ content hcontent => absurd ⟨content, hcontent⟩ hsetUp
    · exact fun _ => ⟨fun hstatus => absurd hstatus hmain, fun _ _ _ => hmain⟩

/-- A host on which every file has one character, reached from a directory without files. -/
def oneCharHost : World where
  loginName := some "root".toList
  node name := if name = "scp://h/f".toList then 1 else 0
  connectSsh _ := true
  openLocal _ := true
  openRemote _ := some ['x']
  sftpRead _ := .ok ⟨1, by decide⟩

/-- **A copy that is not there**: the module exits with status 0, and has created an empty file under
the name of the URI. -/
theorem oneCharHost_copiesNothing :
    ¬ MeetsContract oneCharHost (fun _ => none) "cl_scp".toList "scp://h/f".toList
      "scp://h/g".toList := by
  rw [meetsContract_iff]
  intro h
  obtain ⟨_, remote, _, hfile⟩ := h ['x'] ⟨_, rfl, rfl, rfl, rfl⟩
  rcases hfile with ⟨hnode, _⟩ | ⟨_, hremote⟩
  · exact absurd hnode (by decide)
  · exact absurd hremote (by simp)

/-- **As it is called by `comp_load`**, with a local copy whose name is no scp URI, the module fails
and leaves all files alone. -/
theorem main_localDest {files : Files} {module dest uri : CStr}
    (h : dest.take 6 ≠ "scp://".toList) :
    main w files (compLoadArgv module dest uri) = ⟨.exited 1, files, none⟩ := by
  have hdecode : decodeParameters w.loginName dest = .ok none := by
    rw [decodeParameters, if_pos h]
  simp [main, compLoadArgv, hdecode]

end Sysload.Scp
