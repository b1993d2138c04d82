import BootSequence.Action

/-!
The kernel's answer to a process that may not mount. Texts go to the kernel with an octet 0 behind
them, so one with such an octet inside is refused before the kernel is asked.
-/

namespace BootSequence
namespace Mount
namespace Kernel

/-- Data are checked first, and the fault says where the octet is; the other texts only have to be
free of it. -/
def check (e : Entry) : Except Fault Unit :=
  let data := Octets.ofString (e.data.getD "")
  let texts := [.ofString e.source, e.target.octets, .ofString e.fsType]
  if data.contains Octets.nul then
    .error (.unnumbered
      s!"nul byte found in provided data at position: {data.idxOf Octets.nul}")
  else if texts.any (·.contains Octets.nul) then .error (.numbered .invalid)
  else .ok ()

variable {σ : Type}

def mounter : Mounter σ := fun entry world =>
  match check entry with
  | .error fault => (.error fault, world)
  | .ok () => (.error (.numbered .notPermitted), world)

end Kernel
end Mount
end BootSequence
