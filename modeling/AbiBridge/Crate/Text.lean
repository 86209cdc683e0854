import AbiBridge.Crate.Basic

/-!
The files of a crate.

`librarySource` is the source of the wrappers with the paths they need, `manifestText` the
manifest of the crate, and `buildScript` the program that makes the header.
-/

namespace AbiBridge

/-- The text of lines at the outermost level. -/
def textOfLines (lines : List String) : String := ({ lines } : Emitter).source

namespace Crate

/-- The source of the library: what is brought into scope, and the wrappers in the order of their
registration, with an empty line between the two parts if neither is empty. -/
def librarySource (c : Crate) : String :=
  let parts := [textOfLines (c.imports.map useText), c.emitter.source]
  "\n".intercalate (parts.filter (· != ""))

/-- The manifest of the crate that wraps a package. -/
def manifestText (package : String) (dependencies : List String) (settings : Settings) : String :=
  textOfLines <|
    ["[package]",
      "name = \"" ++ crateNameFor package ++ "\"",
      "version = \"0.1.0\"",
      "edition = \"" ++ settings.edition ++ "\"",
      "",
      "[lib]",
      "name = \"" ++ package ++ "_c\"",
      "path = \"src/lib.rs\"",
      "crate-type = [\"cdylib\"]",
      "",
      "[dependencies]"] ++
    dependencies ++
    ["",
      "[build-dependencies]",
      "cbindgen = \"" ++ settings.headerToolVersion ++ "\"",
      "",
      "[workspace]"]

/-- The program that makes the header of the crate. -/
def buildScript (package : String) (settings : Settings) : String :=
  let body := [
    bindingText "cargo_manifest_dir" "env::var(\"CARGO_MANIFEST_DIR\").unwrap()" false none false,
    bindingText "output_file"
      ("PathBuf::from(&cargo_manifest_dir).join(\"" ++ package ++
        ".h\").display().to_string()") false none false,
    bindingText "config"
      ("Config \x7b language: cbindgen::Language::" ++ settings.headerLanguage.text ++
        ", ..Default::default() \x7d") false none false,
    "cbindgen::generate_with_config(&cargo_manifest_dir, config).unwrap()" ++
      ".write_to_file(&output_file);"]
  textOfLines <|
    [externCrateText "cbindgen", "", useText "std::\x7benv, path::PathBuf\x7d",
      useText "cbindgen::Config", ""] ++
    ({ name := "main" } : Signature).header ++ body.map (Emitter.indentUnit ++ ·) ++ ["\x7d"]

end Crate

end AbiBridge
