import AbiRecovery.FileTree.Basic

/-!
# Operations on files

What is done to the files one after the other, until something fails.
-/
namespace AbiRecovery

/-- An operation on files. One that fails keeps what it has done before. -/
abbrev FileTree.Change (α : Type) : Type := ExceptT FileFault (StateM FileTree) α

namespace FileTree

def fail {α : Type} (path : Location) (cause : FileFault.Cause) : Change α := throw ⟨cause, path⟩

def clear (here : Location) : Change Unit := modify fun t => t.without here

def item? (here : Location) : Change (Option FileItem) := do return (← get).itemAt? here

end FileTree

end AbiRecovery
