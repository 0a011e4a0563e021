import EdmxGen.Main
import EdmxGen.Proofs.Command.Failure
import EdmxGen.Proofs.Generator
import EdmxGen.Proofs.Config.Toml
import EdmxGen.Proofs.File.Lasting
import EdmxGen.Proofs.Model.Projection
import EdmxGen.Proofs.Session.Fetch
import EdmxGen.Proofs.Session.Repeat
import EdmxGen.Proofs.Command.Update
import EdmxGen.Proofs.Model.Demand
import EdmxGen.Proofs.Session.Response
import EdmxGen.Proofs.Xml.Names
import EdmxGen.Proofs.Xml.Spelling
import EdmxGen.Proofs.Xml.Tags
import EdmxGen.Proofs.Xml.Remarks
import EdmxGen.Proofs.Xml.Elements
import EdmxGen.Proofs.Xml.Reading
import EdmxGen.Proofs.Xml.Parser
import EdmxGen.Proofs.Xml.Copy
import EdmxGen.Proofs.Session.Stored
import EdmxGen.Proofs.Command.History
import EdmxGen.Proofs.Model.Key
import EdmxGen.Proofs.Template.Interrupted
import EdmxGen.Proofs.Header.Comment
import EdmxGen.Proofs.Header.First
import EdmxGen.Proofs.Json.Scalar
import EdmxGen.Proofs.Json.Accepted
import EdmxGen.Proofs.Json.Schema
import EdmxGen.Proofs.Header.Revised
import EdmxGen.Proofs.Header.LineEnds
import EdmxGen.Proofs.Model.TypeRef
import EdmxGen.Proofs.Xml.View
import EdmxGen.Proofs.Model.Seen
import EdmxGen.Proofs.Model.Attributes
import EdmxGen.Proofs.Text.Blank
import EdmxGen.Proofs.Address
import EdmxGen.Proofs.Config.History
import EdmxGen.Proofs.Model.Lookup
import EdmxGen.Proofs.Session.Questions
import EdmxGen.Proofs.Command.Settings
import EdmxGen.Proofs.CommandLine.Request
import EdmxGen.Proofs.Text.Order
import EdmxGen.Proofs.Regeneration
