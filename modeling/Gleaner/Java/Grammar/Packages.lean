import Gleaner.Java.Grammar.Types

/-!
# Packages, imports and modules

The declarations that place a file among others. They may stand anywhere a statement may.
-/

namespace Gleaner.Java.Grammar

open Gleaner.Syntax.Rule

/-- The package of a file. -/
def packageDeclaration : Rule :=
  .node "package_declaration" (.seq [annotations, word "package", qualifiedName, word ";"])

/-- An import. -/
def importDeclaration : Rule :=
  .node "import_declaration" (.seq [
    word "import", optional (word "static"), qualifiedName,
    optional (.seq [word ".", .leaf "asterisk" ["*"]]), word ";"])

/-- A directive of a module that names a package and perhaps modules. -/
def packageDirective (kind text link : String) : Rule :=
  .node kind (.seq [
    word text, qualifiedName, optional (.seq [word link, commas1 qualifiedName]), word ";"])

/-- A directive of a module. -/
def moduleDirective : Rule := .alt [
  .node "requires_module_directive" (.seq [
    word "requires", .many (.leaf "requires_modifier" ["transitive", "static"]), qualifiedName,
    word ";"]),
  packageDirective "exports_module_directive" "exports" "to",
  packageDirective "opens_module_directive" "opens" "to",
  .node "uses_module_directive" (.seq [word "uses", qualifiedName, word ";"]),
  .node "provides_module_directive" (.seq [
    word "provides", qualifiedName, word "with", commas1 qualifiedName, word ";"])]

/-- A module. -/
def moduleDeclaration : Rule :=
  .node "module_declaration" (.seq [
    annotations, optional (word "open"), word "module", .role "name" qualifiedName,
    .role "body" (.node "module_body" (braces (.many moduleDirective)))])

end Gleaner.Java.Grammar
