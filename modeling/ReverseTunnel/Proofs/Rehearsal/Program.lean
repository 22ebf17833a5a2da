import ReverseTunnel.Proofs.Config.Locating
import ReverseTunnel.Rehearsal.Program

/-!
What a run of the whole program leaves.

What is proved: whatever the arguments are and however a run ends, it changes and removes
nothing that is in the folders that it is started in (`rehearse_kept`).

What is not said here: which file a run makes and what a second run finds, which is proved of
the locating of configuration files itself (`Config.MadeSure`). A run that cannot start may
leave folders that it made on the way. A log that goes to a file is not written in a rehearsal;
the file is opened behind what it holds.
-/

namespace ReverseTunnel.Rehearsal.Program

open CommandLine
open Disk (Folders)
open Disk.Folders (Kept kept_refl)

variable {d d' : Folders}

theorem kept_of_output {o : Logging.Output} {result : Except Logging.OutputError Unit}
    (h : o.prepare d = (d', result)) : Kept d d' := by
  cases o with
  | file path =>
    let parent := (Disk.Path.parent? path).getD ""
    have hdeepens := Disk.Folders.makeFolders_deepens (parent.length + 1) parent d
    rw [Logging.Output.prepare, Logging.openFile, Disk.Folders.makeAll] at h
    split at h
    · rename_i hfailed
      rw [hfailed] at hdeepens
      cases h
      exact hdeepens.kept
    · rename_i hmade
      rw [hmade] at hdeepens
      split at h
      · rename_i hopened
        cases h
        exact hdeepens.kept.trans (Disk.Folders.kept_openFile hopened)
      · cases h
        exact hdeepens.kept
  | _ =>
    cases h
    exact kept_refl d

theorem kept_of_prepare {flag environment : Option String} {result : Except StartError Loaded}
    (h : prepare flag environment d = (d', result)) : Kept d d' := by
  rw [prepare] at h
  split at h
  · cases h
    exact kept_refl d
  · split at h
    · rename_i hfailed
      cases h
      exact (Config.ensured hfailed).kept
    · rename_i hensured
      have hkept := (Config.ensured hensured).kept
      split at h
      · cases h
        exact hkept
      · split at h
        · rename_i hfailed
          cases h
          exact hkept.trans (kept_of_output hfailed)
        · rename_i hopened
          cases h
          exact hkept.trans (kept_of_output hopened)

theorem rehearse_kept (args : List String) (config filter : Option String) (d : Folders) :
    Kept d (rehearse args config filter d).folders := by
  rw [rehearse]
  split
  · exact kept_refl d
  · exact kept_refl d
  · exact kept_refl d
  · split
    · rename_i hprepared
      exact kept_of_prepare hprepared
    · rename_i hprepared
      dsimp only
      split
      · exact kept_of_prepare hprepared
      · exact kept_of_prepare hprepared

end ReverseTunnel.Rehearsal.Program
