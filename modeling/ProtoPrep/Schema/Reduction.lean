import ProtoPrep.Schema.GatewayOption
import ProtoPrep.Schema.HttpOption
import ProtoPrep.Schema.Rule

/-!
# Reducing a schema

A schema is reduced to what a restricted generator accepts in five steps, each of
which works on the text that the step before it left:

1. the first gateway option block is cut out,
2. imports of well-known files are replaced by definitions,
3. all other imports are dropped,
4. HTTP options are cut out,
5. qualified names of the defined types are shortened.
-/

namespace ProtoPrep

/-- What each step of a reduction changed. -/
structure Report where
  region : Option Region := none
  inlined : Nat := 0
  stripped : Nat := 0
  httpOptions : Nat := 0
  renamed : Nat := 0
deriving DecidableEq

namespace Report

def isEmpty (report : Report) : Bool :=
  report = {}

def describe (report : Report) : String :=
  let region := match report.region with
    | none => "None"
    | some r => s!"Some(BraceScanRegion \x7b start_line: {r.start}, end_line: {r.stop} \x7d)"
  s!"TransformReport \x7b removed_region: {region}, inlined_imports: {report.inlined}, " ++
    s!"stripped_imports: {report.stripped}, stripped_http_options: {report.httpOptions}, " ++
    s!"renamed_references: {report.renamed} \x7d"

end Report

structure Reduction where
  text : Text
  report : Report
  records : List Record

def reduce (source : Text) : Reduction :=
  let (ungated, region) := GatewayOption.remove source
  let inlined := Rule.applyInOrder Rule.inlineImports ungated
  let stripped := Rule.stripImports.apply inlined.text
  let plain := HttpOption.strip stripped.text
  let renamed := Rule.applyInOrder Rule.renameTypes plain
  let report : Report :=
    { region := region
      inlined := inlined.total
      stripped := stripped.count
      httpOptions := HttpOption.count stripped.text
      renamed := renamed.total }
  { text := renamed.text
    report := report
    records := GatewayOption.records region ++ inlined.records ++
      HttpOption.records stripped.text ++ renamed.records ++
        [⟨.debug, "Transform report: " ++ report.describe⟩] }

end ProtoPrep
