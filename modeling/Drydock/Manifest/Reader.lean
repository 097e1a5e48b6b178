import Drydock.Manifest
import Drydock.Toml.Record

/-!
# Reading manifests

`Manifest.parse` reads the text of a manifest.  Each section is a record whose keys are written
with hyphens; a text that is not in the format is an error before any section is looked at.
-/

namespace Drydock

open Toml Toml.Record

/-- Reads an empty table or array. -/
def readNothing : Read Unit
  | .table _ [] => .ok ()
  | .array [] => .ok ()
  | _ => .error .malformed

namespace InitStep

/-- The words for the steps. -/
def words : List (String × InitStep) := [("inject-vendored-paths", .injectVendoredPaths)]

/-- Reads a step: its word, or a table whose only key is the word and whose value is empty. -/
def read : Read InitStep
  | .text word => choose words word
  | .table _ [(word, payload)] => do
      let step ← choose words word
      readNothing payload
      return step
  | _ => .error .malformed

end InitStep

namespace PrebuildStep

/-- The words for the kinds of steps, with their fields. -/
def kinds : List (String × Record PrebuildStep) :=
  [("build-vendored-library", buildVendoredLibrary <$> required "header" readPath),
    ("config-header",
      configHeader <$> required "path" readPath <*> required "prefix" readText <*>
        listed "placeholders" readText)]

/-- The kind that a value names. -/
def kindOf (v : Value) : Except ManifestError (Record PrebuildStep) := readText v >>= choose kinds

/-- Reads a step.  Its kind is the field `kind`, or the first item of an array, in which no item
may be left over. -/
def read : Read PrebuildStep
  | .table standing entries =>
      match entries.lookup "kind" with
      | some kind => do (← kindOf kind).read (.table standing entries)
      | none => .error (.missingField "kind")
  | v =>
      match itemsOf? v with
      | some (kind :: items) => do
          let record ← kindOf kind
          let step ← record.read (.array items)
          if items.length ≤ record.fields.length then return step else throw .malformed
      | some [] => .error (.missingField "kind")
      | none => .error .malformed

end PrebuildStep

/-- The section `[package]`. -/
def Package.record : Record Package :=
  Package.mk <$> required "name" readText <*> withDefault "output-dir" readPath ⟨"."⟩ <*>
    withDefault "build-dir" readPath ⟨"build/slipway"⟩ <*> optional "ext-suffix" readText

/-- The section `[vendored]`. -/
def Vendored.record : Record Vendored :=
  Vendored.mk <$> required "name" readText <*> required "path" readPath <*>
    required "prefix" readText <*> required "archive" readPath <*>
    required "objects-variable" readText <*> withDefault "static-target" readText "lib-static" <*>
    listed "configure-fallbacks" readText <*> optional "docs-configure-options" readText <*>
    withDefault "system-libraries" (readList readText) ["z"] <*>
    required "external-library" readText <*> listed "features" readText <*>
    optional "config-values" readPath <*> listed "default-config-headers" readPath

/-- The section `[defaults]`. -/
def ModuleDefaults.record : Record ModuleDefaults :=
  ModuleDefaults.mk <$> listed "include-dirs" readPath <*> listed "library-dirs" readPath <*>
    listed "define-macros" readText <*> listed "undef-macros" readText <*>
    listed "extra-compile-args" readText <*> listed "extra-link-args" readText <*>
    listed "sources" readText <*> optional "init" InitStep.read

/-- The section `[verify]`. -/
def Verification.record : Record Verification :=
  Verification.mk <$> listed "ignore-symbols" readText <*> withDefault "nm" readText "nm"

/-- The section `[clean]`. -/
def Cleaning.record : Record Cleaning :=
  Cleaning.mk <$> listed "generated-sources" readText <*> listed "config-headers" readText <*>
    listed "objects" readText

/-- The section `[platform]`. -/
def CompilerOverrides.record : Record CompilerOverrides :=
  CompilerOverrides.mk <$> nullable "cc" readText <*> nullable "cflags" readText <*>
    nullable "ccshared" readText <*> nullable "ldflags" readText <*> nullable "ldshared" readText

/-- A section `[[module]]`. -/
def ModuleEntry.record : Record ModuleEntry :=
  ModuleEntry.mk <$> required "name" readText <*> required "sources" (readList readText) <*>
    listed "depends-on" readText <*> listed "libraries" readText <*>
    listed "extra-objects" readPath <*> listed "include-dirs" readPath <*>
    listed "library-dirs" readPath <*> listed "define-macros" readText <*>
    listed "extra-compile-args" readText <*> listed "extra-link-args" readText <*>
    withDefault "foundational" readBoolean false <*> optional "prebuild" PrebuildStep.read <*>
    optional "init" InitStep.read

namespace Manifest

/-- The whole document; the directory of the manifest is filled in later. -/
def record : Record (Path → Manifest) :=
  Manifest.mk <$> required "package" Package.record.read <*>
    optional "vendored" Vendored.record.read <*>
    withDefault "defaults" ModuleDefaults.record.read {} <*>
    withDefault "verify" Verification.record.read {} <*>
    withDefault "clean" Cleaning.record.read {} <*>
    withDefault "platform" CompilerOverrides.record.read {} <*>
    listed "module" ModuleEntry.record.read

/-- Reads the text of a manifest in the directory `root`. -/
def parse (text : String) (root : Path) : Except ManifestError Manifest :=
  match document? text with
  | some entries => (record.read (.table .headed entries)).map (· root)
  | none => .error .malformed

end Manifest

end Drydock
