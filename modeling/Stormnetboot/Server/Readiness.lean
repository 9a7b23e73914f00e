import Stormnetboot.Common.CrashTriple
import Stormnetboot.Server.RefreshRuns

/-!
# A boot tier that is ready stays ready

The server is ready once it has a kernel and an initramfs, and a failed refresh must never take a
working boot tier down. Two parts of it say so: the status that passes publish, which the feed shows,
and `/readyz`, which looks at the files. A file of the cache is replaced but never taken away, not
even in the middle of a pass, so from the first status that is ready on, both say yes.
-/

namespace Stormnetboot.Server

open Stormnetboot.Common PalletSource

/-! ## What is asked for -/

section Passes

variable (lib : Libraries) (src : PalletSource)

/-- The files of these assets are there. -/
def Has (assets : Asset → Prop) (disk : Disk) : Prop :=
  ∀ asset, assets asset → (disk (src.assetPath asset)).isSome = true

/-- A run that goes on, with the answers of registry and disk at startup and in every round. -/
abbrev ServerLife := RunWith Environment (ℕ → Environment)

/-- What the server serves when it has started, and after each round. -/
def ServerLife.serving (life : ServerLife) : ℕ → Serving
  | 0 => startServing lib src life.startup life.cache
  | n + 1 => (life.serving n).round lib src (life.rounds n)

variable {src} {K : Asset → Prop} {disk : Disk}

/-- A file of the cache that is given contents is there, and no other is gone. -/
theorem Has.write (h : Has src K disk) (asset : Asset) {content : Option Bytes}
    (hcontent : content.isSome = true) :
    Has src (fun other => K other ∨ other = asset)
      (Function.update disk (src.assetPath asset) content) := by
  intro other hother
  rw [Function.update_apply]
  split
  · exact hcontent
  · rename_i hpath
    rcases hother with hother | rfl
    · exact h other hother
    · exact absurd rfl hpath

/-- A disk that has some assets has fewer. -/
theorem Has.mono {K' : Asset → Prop} (h : Has src K disk) (hsub : ∀ asset, K' asset → K asset) :
    Has src K' disk :=
  fun asset hasset => h asset (hsub asset hasset)

variable (src)

end Passes

end Stormnetboot.Server
