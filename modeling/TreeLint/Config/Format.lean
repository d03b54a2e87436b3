/-
The format of configuration files.

How a text is read, and how options are written, is left to a `Format`.  What a text
stands for is a content: it has a value, in which a list or mapping that stands within
itself is shown by its brackets alone, and if it is a mapping, the values of its keys are
contents again.  `Format.Lawful` says how the questions about a content fit together.
-/
import TreeLint.Fault
namespace TreeLint.Config

/-- A format of configuration files. -/
structure Format where
  /-- What a text may stand for. -/
  Content : Type
  /-- What a text stands for, if it is well formed. -/
  read : String → Except Fault (Option Content)
  /-- The value of a content. -/
  value : Content → Value
  /-- The entries of a content that is a mapping. -/
  entries? : Content → Option (List (Value × Content))
  /-- Whether a content counts as present. -/
  isPresent : Content → Bool
  /-- Writes a mapping: what is written, and the fault that ends it, if there is one. -/
  write : List (Value × Value) → String × Option Fault

/-- Whether the questions about contents fit together: a content counts as its value does, and the
value of one that has entries is a mapping with their keys. -/
structure Format.Lawful (format : Format) : Prop where
  isPresent : ∀ content, format.isPresent content = (format.value content).isTruthy
  entries : ∀ content parts, format.entries? content = some parts →
    ∃ entries, format.value content = .mapping entries ∧ entries.map (·.1) = parts.map (·.1)

end TreeLint.Config
