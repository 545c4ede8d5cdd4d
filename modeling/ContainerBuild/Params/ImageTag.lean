import ContainerBuild.Params.Shared
import ContainerBuild.Time.Format

namespace ContainerBuild
namespace ImageTag

/-!
# Image tags

A fresh tag names the user and the component, and tells builds of the same component apart by
five random digits and the second it was made in.
-/

/-- The arrangement from which on a tag names its platform. -/
def platformArrangement : UInt32 := 4

/-- How many numbers of five digits there are. -/
def spread : Nat := 90000

/-- The least number of five digits. -/
def least : Nat := 10000

/-- Whether a draw falls among those that are dealt out evenly: the product with the spread must
not lie in the incomplete last share of a word of 32 bits. -/
def isFair (draw : UInt32) : Bool := draw.toNat * spread % UInt32.size ≤ 2949119999

/-- Five digits from a sequence of draws, which zeros follow: the first fair draw counts. -/
def fiveDigits : List UInt32 → Nat
  | [] => least
  | draw :: rest =>
      if isFair draw then least + draw.toNat * spread / UInt32.size else fiveDigits rest

/-- The tag of an image of five digits and an instant:
`<user>/<component>:<target>-<digits>-<second>`, and the platform where it is named. -/
def ofDigits (params : SharedParams) (digits : Nat) (instant : Instant) : String :=
  let platform := match params.platform with
    | some platform =>
        if platformArrangement ≤ params.arrangementVersion.getD 0 then "-" ++ platform else ""
    | none => ""
  params.user.getD "None" ++ "/" ++ params.component.getD "None" ++ ":" ++
    params.kojiTarget.getD "none" ++ "-" ++ toString digits ++ "-" ++ instant.digitsText ++ platform

/-- A fresh tag. -/
def make (params : SharedParams) (instant : Instant) (draws : List UInt32) : String :=
  ofDigits params (fiveDigits draws) instant

end ImageTag
end ContainerBuild
