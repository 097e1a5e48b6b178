import Drydock.Json
import Drydock.Plan

/-!
# Plans and flags as JSON

The fields of a plan in the order in which they are printed; configure options and pre-build steps
are left out where there are none.
-/

namespace Drydock

/-- A list of paths. -/
def Json.paths (items : List Path) : Json := Json.texts (items.map Path.text)

/-- A command. -/
def Command.json (c : Command) : Json :=
  .object [("program", .text c.program), ("args", Json.texts c.args)]

/-- The flags of a module. -/
def CompilerFlags.json (f : CompilerFlags) : Json :=
  .object
    [("cc", .text f.cc), ("cppflags", Json.texts f.cppflags), ("cflags", Json.texts f.cflags),
      ("ldflags", Json.texts f.ldflags), ("libs", Json.texts f.libs)]

/-- A pre-build step. -/
def PrebuildStep.json : PrebuildStep → Json
  | buildVendoredLibrary header =>
      .object [("kind", .text "build-vendored-library"), ("header", .text header.text)]
  | configHeader path keyPrefix placeholders =>
      .object
        [("kind", .text "config-header"), ("path", .text path.text), ("prefix", .text keyPrefix),
          ("placeholders", Json.texts placeholders)]

/-- The plan of a module. -/
def ModulePlan.json (p : ModulePlan) : Json :=
  .object <|
    [("name", .text p.name), ("output", .text p.output.text),
      ("depends_on", Json.texts p.dependsOn),
      ("sources", Json.paths p.sources), ("objects", Json.paths p.objects),
      ("extra_objects", Json.paths p.extraObjects), ("include_dirs", Json.paths p.includeDirs),
      ("library_dirs", Json.paths p.libraryDirs), ("libraries", Json.texts p.libraries),
      ("extra_link_args", Json.texts p.linkArgs), ("config", p.flags.json)] ++
    (p.prebuild.map fun step => ("prebuild", step.json)).toList ++
    [("compile", .list (p.compile.map Command.json)), ("link", p.link.json)]

/-- The plan of a package. -/
def Plan.json (p : Plan) : Json :=
  .object <|
    [("mode", .text p.mode.word), ("platform", .text p.platform.word)] ++
    (p.configureOptions.map fun options => ("configure_options", .text options)).toList ++
    [("modules", .list (p.modules.map ModulePlan.json))]

end Drydock
