import TierHost.Template.Kind.Collection
import TierHost.Template.Kind.General
import TierHost.Template.Kind.Number
import TierHost.Template.Kind.Reflected
import TierHost.Template.Kind.Text

/-!
The members of every kind, and where a kind finds a member: with itself or with a kind that it
extends.
-/

namespace TierHost.Template.Kind

def doc? : Kind → Option String
  | .object => some Member.objectDoc
  | .kinds => some Member.kindsDoc
  | .text => some Member.textDoc
  | .whole => some Member.wholeDoc
  | .flag => some Member.flagDoc
  | .real => some Member.realDoc
  | .group => some Member.groupDoc
  | .indexed => some Member.indexedDoc
  | _ => none

def signature? : Kind → Option String
  | .object => some "()"
  | .real => some "(x=0, /)"
  | .group => some "(iterable=(), /)"
  | _ => none

def members : Kind → List Member
  | .object => Member.ofObject
  | .kinds => Member.ofKinds
  | .text => Member.ofText
  | .whole => Member.ofWhole
  | .flag => Member.ofFlag
  | .real => Member.ofReal
  | .absent => Member.ofAbsent
  | .group => Member.ofGroup
  | .table => Member.ofTable
  | .indexed => Member.ofIndexed
  | .operator => Member.ofOperator
  | .method => Member.ofMethod
  | .shared => Member.ofShared
  | .free => Member.ofFree
  | .property => Member.ofProperty
  | .field => Member.ofField
  | .boundOperator => Member.ofBoundOperator
  | .boundMethod => Member.ofBoundMethod

def ownMember? (k : Kind) (name : String) : Option Member :=
  k.members.find? fun m => m.name = name

/-- The nearest kind of the lineage that has a member of the name, and the member. -/
def member? (k : Kind) (name : String) : Option (Kind × Member) :=
  k.lineage.findSome? fun owner => (owner.ownMember? name).map fun m => (owner, m)

end TierHost.Template.Kind
