import Sysload.Lib.Slots
import Sysload.Loader.InsfileLines

/-!
# The vote on the components (`identify_file`)

Each component of an insfile is renamed to the file that `identify_file` takes it for, over the one
that was there. With the components as candidates and the types as slots (`Sysload.Lib.Slots`) the
files are what the slots have, above the files from before.

Source: `src/core/insfile.c`, `identify_file` and `action_insfile_boot`.

Results:
* `loadComponent_shows`, `components_show`: one component, and the loop.
* **`voting_iff`**: the files that are booted have the most votes if and only if for each of their
  types a component with the most votes is taken for it, and those behind it that are taken for it
  have as many.
-/

namespace Sysload

open Slots

/-! ## Votes -/

section Votes

variable (os : Os) (uriPath : CStr)

/-- The component is loaded. -/
def Component.Loads (c : Component) : Prop :=
  verifyUriScheme (prefixRoot uriPath c.filename) = true ∧
    ∃ data, os.loaderModule (localName c.linecount) (prefixRoot uriPath c.filename) = .success data

/-- What the loader module delivers. -/
def Component.content (c : Component) : List Char :=
  match os.loaderModule (localName c.linecount) (prefixRoot uriPath c.filename) with
  | .success data => data
  | .failure _ _ => []

/-- `identify_file` gives up: the local copy cannot be looked at. -/
def Component.Unreadable (c : Component) : Prop :=
  (os.stat (localName c.linecount)).isSome ∨
    (512 * 1024 < (c.content os uriPath).length ∨
      (c.content os uriPath).length ≤ sysloadMaxKernelCmdline) ∧
      (os.openRead (localName c.linecount)).isSome

instance (c : Component) : Decidable (c.Unreadable os uriPath) :=
  inferInstanceAs (Decidable (_ ∨ _))

/-- The votes for a component. -/
def Component.votes (c : Component) : InsComponentType → Nat :=
  if c.Unreadable os uriPath then fun _ => 0 else Sysload.votes (c.content os uriPath) c.addr

/-- What a component is taken for. -/
def Component.type (c : Component) : InsComponentType := mostProbable (c.votes os uriPath)

variable {os uriPath}

theorem identifyFile_type {c : Component} {s : Sys} {file : LocalFile}
    (hfile : s.files (localName c.linecount) = some file)
    (hdata : file.data = c.content os uriPath) :
    identifyFile os s (localName c.linecount) c.addr = c.type os uriPath := by
  unfold identifyFile Component.type Component.votes
  rw [hfile]
  cases hstat : os.stat (localName c.linecount) with
  | some e =>
    have hunreadable : c.Unreadable os uriPath := Or.inl (by rw [hstat]; rfl)
    dsimp only
    rw [if_pos hunreadable]
    rfl
  | none =>
    have hunreadable : c.Unreadable os uriPath ↔ (512 * 1024 < (c.content os uriPath).length ∨
        (c.content os uriPath).length ≤ sysloadMaxKernelCmdline) ∧
          (os.openRead (localName c.linecount)).isSome := by
      rw [Component.Unreadable, hstat]
      exact or_iff_right (by simp)
    dsimp only
    rw [hdata]
    by_cases h : c.Unreadable os uriPath
    · rw [if_pos h, if_pos (hunreadable.mp h)]
      rfl
    · rw [if_neg h, if_neg (mt hunreadable.mpr h)]

end Votes

/-! ## Files and slots -/

section Loop

variable (os : Os) (uriPath : CStr)

/-- **The files are what the slots have**, above the files from before. -/
structure Shows (start : Sys) (slots : InsComponentType → Option Component) (s : Sys) : Prop where
  call : s.call = start.call
  files : ∀ t name, bootName t = some name → s.files name =
    ((slots t).map fun c => ⟨c.content os uriPath, some start.call, some start.call⟩).or
      (start.files name)

variable {os uriPath} {start s : Sys} {slots : InsComponentType → Option Component}

/-- What `loadComponent` leaves of a component that is loaded. -/
def Component.leave (os : Os) (uriPath : CStr) (c : Component) (s : Sys) : Sys :=
  match bootName (c.type os uriPath) with
  | some name => s.leave c.linecount (c.content os uriPath) name
  | none => (s.put (localName c.linecount)
      (some ⟨c.content os uriPath, some s.call, none⟩)).unlink (localName c.linecount)

theorem loadComponent_leave {c : Component} (hload : c.Loads os uriPath) (s : Sys) :
    (loadComponent os uriPath c.linecount c.filename c.addr).Runs s (.ok ())
      (c.leave os uriPath s) := by
  obtain ⟨hscheme, data, hmodule⟩ := hload
  have hcontent : c.content os uriPath = data := by rw [Component.content, hmodule]
  have hidentify := @identifyFile_type os uriPath c
    (s.put (localName c.linecount) (some ⟨data, some s.call, none⟩)) ⟨data, some s.call, none⟩
    (by rw [Sys.put_files, if_pos rfl]) hcontent.symm
  unfold loadComponent
  rw [Routine.runs_bind_of_ok (compLoad_success os s hscheme hmodule)]
  refine Routine.runs_get_bind.mpr ?_
  rw [hidentify, Component.leave, hcontent]
  cases c.type os uriPath <;> exact Routine.runs_modify.mpr ⟨rfl, rfl⟩

theorem leave_call (c : Component) (s : Sys) : (c.leave os uriPath s).call = s.call := by
  unfold Component.leave
  split
  · exact Sys.leave_call _ _ _ _
  · rfl

/-- A component that is loaded becomes the file of its type, the other files stay. -/
theorem leave_files (c : Component) (s : Sys) {t : InsComponentType} {name : String}
    (hname : bootName t = some name) :
    (c.leave os uriPath s).files name =
      if c.type os uriPath = t then some ⟨c.content os uriPath, some s.call, some s.call⟩
      else s.files name := by
  have hlocal : name ≠ localName c.linecount := fun heq =>
    localName_notMem c.linecount (heq ▸ bootName_mem hname)
  unfold Component.leave
  split
  · rename_i newName hnew
    rw [Sys.leave_files _ _ _ _ (bootName_mem hname)]
    by_cases htype : c.type os uriPath = t
    · rw [htype, hname] at hnew
      rw [if_pos htype, if_pos (Option.some.inj hnew)]
    · rw [if_neg htype, if_neg]
      rintro rfl
      exact htype (bootName_inj hnew hname)
  · rename_i hnone
    have htype : c.type os uriPath ≠ t := by
      rintro rfl
      rw [hname] at hnone
      cases hnone
    rw [if_neg htype, Sys.unlink, Sys.put_files, if_neg hlocal, Sys.put_files, if_neg hlocal]

/-- **A component that is loaded** goes into the slot of its type. -/
theorem loadComponent_shows (c : Component) (h : Shows os uriPath start slots s) :
    Shows os uriPath start (place (Component.type os uriPath) slots c) (c.leave os uriPath s) where
  call := (leave_call c s).trans h.call
  files t name hname := by
    rw [leave_files c s hname, h.files t name hname, h.call, place]
    by_cases htype : c.type os uriPath = t
    · subst htype
      rw [if_pos rfl, Function.update_self]
      rfl
    · rw [if_neg htype, Function.update_of_ne (Ne.symm htype)]

/-- **The loop**: where all components are loaded, it comes to its end, with the files of the
slots. -/
theorem components_show {cs : List Component} (hload : ∀ c ∈ cs, c.Loads os uriPath)
    (h : Shows os uriPath start slots s) :
    ∃ s', (forM cs fun c => loadComponent os uriPath c.linecount c.filename c.addr).Runs s (.ok ⟨⟩)
        s' ∧ Shows os uriPath start (placeAll (Component.type os uriPath) slots cs) s' := by
  induction cs generalizing slots s with
  | nil => exact ⟨s, Routine.runs_pure.mpr ⟨rfl, rfl⟩, h⟩
  | cons c cs ih =>
    obtain ⟨hc, hcs⟩ := List.forall_mem_cons.mp hload
    obtain ⟨s', hrun, hshows⟩ := ih hcs (loadComponent_shows c h)
    refine ⟨s', ?_, hshows⟩
    rw [List.forM_cons]
    exact (Routine.runs_bind_of_ok (loadComponent_leave hc s)).mpr hrun

theorem shows_start (s : Sys) : Shows os uriPath s (fun _ => none) s :=
  ⟨rfl, fun _ _ _ => rfl⟩

end Loop

/-! ## The files that are booted -/

section Booted

variable (os : Os) (uriPath : CStr) (data : List Char)

/-- The components of an insfile. -/
def insfileComponents : List Component := components (insfilePieces data) 0 ([], 0)

/-- What the slots have in the end. -/
def elected : InsComponentType → Option Component :=
  placeAll (Component.type os uriPath) (fun _ => none) (insfileComponents data)

/-- The file of a type, if there is one, is a component of the insfile with the most votes. -/
def BootsBest (s : Sys) (t : InsComponentType) : Prop :=
  ∀ name, bootName t = some name → s.files name ≠ none →
    ∃ c, elected os uriPath data t = some c ∧
      IsBest (Component.votes os uriPath) (insfileComponents data) t c

/-- A component with the most votes for the type is taken for it, and those behind it that are taken
for it have as many; where no component is taken for it there is no file from before. -/
def VotesKept (start : Sys) (t : InsComponentType) : Prop :=
  KeepsBest (Component.type os uriPath) (Component.votes os uriPath) (insfileComponents data) t ∧
    ∀ name, bootName t = some name → start.files name ≠ none →
      ∃ c ∈ insfileComponents data, c.type os uriPath = t

variable {os uriPath data}

theorem elected_isSome {t : InsComponentType} :
    (∃ c, elected os uriPath data t = some c) ↔
      ∃ c ∈ insfileComponents data, c.type os uriPath = t := by
  rw [elected, placeAll_eq, Option.or_none]
  constructor
  · rintro ⟨c, hc⟩
    exact ⟨c, mem_ofKind.mp (List.mem_of_getLast? hc)⟩
  · rintro ⟨c, hc⟩
    have hne := List.ne_nil_of_mem (mem_ofKind.mpr hc)
    exact ⟨_, List.getLast?_eq_some_getLast hne⟩

theorem bootsBest_iff {start s : Sys} (h : Shows os uriPath start (elected os uriPath data) s)
    (t : InsComponentType) :
    BootsBest os uriPath data s t ↔ VotesKept os uriPath data start t ∨ bootName t = none := by
  cases hname : bootName t with
  | none => exact iff_of_true (fun name h => by rw [hname] at h; cases h) (Or.inr rfl)
  | some name =>
    have hfile := h.files t name hname
    rw [or_iff_left (by simp), VotesKept, ← best_iff, ← elected]
    constructor
    · intro hbest
      refine ⟨fun a ha => ?_, fun other hother hold => elected_isSome.mp ?_⟩
      · obtain ⟨c, hc, hmost⟩ := hbest name hname (by rw [hfile, ha]; simp)
        obtain rfl := Option.some.inj (ha.symm.trans hc)
        exact hmost
      · obtain rfl := Option.some.inj (hname.symm.trans hother)
        have hthere : s.files name ≠ none := by
          rw [hfile]
          simp [hold]
        obtain ⟨c, hc, _⟩ := hbest name hname hthere
        exact ⟨c, hc⟩
    · rintro ⟨hbest, hold⟩ other hother hthere
      obtain rfl := Option.some.inj (hname.symm.trans hother)
      cases hc : elected os uriPath data t with
      | some c => exact ⟨c, rfl, hbest c hc⟩
      | none =>
        rw [hfile, hc] at hthere
        obtain ⟨c, hc'⟩ := elected_isSome.mpr (hold name hname hthere)
        rw [hc] at hc'
        cases hc'

/-- **The vote**: where all components of an insfile are loaded, the loop comes to its end with a
copy of the last component that was taken for each type, and the files that are booted have the most
votes if and only if the votes are kept. -/
theorem voting_iff (start : Sys) (hload : ∀ c ∈ insfileComponents data, c.Loads os uriPath) :
    ∃ s, (loadComponents os uriPath (insfilePieces data) 0 [] 0).Runs start (.ok ()) s ∧
      (∀ t name, bootName t = some name → s.files name =
        ((elected os uriPath data t).map fun c =>
          ⟨c.content os uriPath, some start.call, some start.call⟩).or (start.files name)) ∧
      ((∀ t ∈ [.kernel, .initrd, .parmfile], BootsBest os uriPath data s t) ↔
        ∀ t ∈ [.kernel, .initrd, .parmfile], VotesKept os uriPath data start t) := by
  obtain ⟨s, hrun, hshows⟩ := components_show hload (shows_start start)
  refine ⟨s, ?_, hshows.files, forall_congr' fun t => imp_congr_right fun ht => ?_⟩
  · have hloop := loadComponents_eq os uriPath (insfilePieces data) 0 ([], 0)
    rw [hloop]
    exact hrun
  · refine (bootsBest_iff hshows t).trans (or_iff_left fun hnone => ?_)
    simp only [List.mem_cons, List.not_mem_nil, or_false] at ht
    rcases ht with rfl | rfl | rfl <;> cases hnone

end Booted

/-! ## Insfiles with parmfiles -/

/-- Where the insfile is. -/
def ftpPath : CStr := "ftp://h/".toList

/-- An insfile with one component. -/
def oneParmfile : List Char := "p 10480\n".toList

/-- An insfile with a second component, at another address. -/
def twoParmfiles : List Char := "p 10480\nq 5\n".toList

theorem components_oneParmfile : insfileComponents oneParmfile = [⟨1, ['p'], 0x10480⟩] := by
  decide +kernel

theorem components_twoParmfiles :
    insfileComponents twoParmfiles = [⟨1, ['p'], 0x10480⟩, ⟨2, ['q'], 5⟩] := by
  decide +kernel

/-- The empty file is taken for a parmfile. -/
theorem voting_iff_oneParmfile :
    ∃ s, (loadComponents .willing ftpPath (insfilePieces oneParmfile) 0 [] 0).Runs .boot (.ok ())
        s ∧
      ∀ t ∈ [.kernel, .initrd, .parmfile], BootsBest .willing ftpPath oneParmfile s t := by
  have hload : ∀ c ∈ insfileComponents oneParmfile, c.Loads .willing ftpPath := by
    rw [components_oneParmfile]
    exact fun c hc => List.mem_singleton.mp hc ▸ ⟨by decide, [], rfl⟩
  obtain ⟨s, hrun, _, hiff⟩ := voting_iff Sys.boot hload
  refine ⟨s, hrun, hiff.mpr fun t ht => ⟨?_, fun _ _ hold => absurd rfl hold⟩⟩
  rw [components_oneParmfile]
  have htype : Component.type .willing ftpPath ⟨1, ['p'], 0x10480⟩ = .parmfile := rfl
  by_cases hparmfile : t = .parmfile
  · subst hparmfile
    exact Or.inr ⟨[], _, [], rfl, htype, by simp [IsBest], by simp⟩
  · refine Or.inl fun c hc hkind => hparmfile ?_
    rw [List.mem_singleton.mp hc, htype] at hkind
    exact hkind.symm

/-- **A later component takes the place of a better one**: behind a parmfile at its address any
small printable file is booted as the parmfile. -/
theorem twoParmfiles_overwrites :
    ∃ s, (loadComponents .willing ftpPath (insfilePieces twoParmfiles) 0 [] 0).Runs .boot (.ok ())
        s ∧
      ¬ BootsBest .willing ftpPath twoParmfiles s .parmfile := by
  have hload : ∀ c ∈ insfileComponents twoParmfiles, c.Loads .willing ftpPath := by
    rw [components_twoParmfiles]
    simp only [List.forall_mem_cons]
    exact ⟨⟨by decide, [], rfl⟩, ⟨by decide, [], rfl⟩, by simp⟩
  obtain ⟨s, hrun, hshows⟩ := components_show hload (shows_start Sys.boot)
  have hloop := loadComponents_eq .willing ftpPath (insfilePieces twoParmfiles) 0 ([], 0)
  have helected : elected .willing ftpPath twoParmfiles .parmfile = some ⟨2, ['q'], 5⟩ := by
    rw [elected, components_twoParmfiles]
    rfl
  refine ⟨s, by rw [hloop]; exact hrun, fun hbest => ?_⟩
  obtain ⟨c, hc, hmost⟩ := hbest _ rfl (by
    rw [hshows.files .parmfile _ rfl]
    show ((elected .willing ftpPath twoParmfiles .parmfile).map _).or _ ≠ none
    rw [helected]
    simp)
  obtain rfl := Option.some.inj (helected.symm.trans hc)
  have hless := hmost ⟨1, ['p'], 0x10480⟩ (by rw [components_twoParmfiles]; simp)
  exact absurd hless (by decide +kernel)

end Sysload
