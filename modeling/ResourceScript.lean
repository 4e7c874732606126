import ResourceScript.Access
import ResourceScript.Answer
import ResourceScript.Calendar
import ResourceScript.Data.Conversion
import ResourceScript.Data.Dates
import ResourceScript.Data.Display
import ResourceScript.Data.Key
import ResourceScript.Data.Order
import ResourceScript.DataUri
import ResourceScript.Fault
import ResourceScript.Files
import ResourceScript.Format.Csv
import ResourceScript.Format.Form
import ResourceScript.Format.Html.Names
import ResourceScript.Format.Html.Read
import ResourceScript.Format.Html.Reference
import ResourceScript.Format.Html.Written
import ResourceScript.Format.Json
import ResourceScript.Format.Properties
import ResourceScript.Format.Xml.Doctype
import ResourceScript.Format.Xml.Document
import ResourceScript.Format.Xml.Read
import ResourceScript.Format.Xml.Syntax
import ResourceScript.Format.Xml.Tree
import ResourceScript.Format.Xml.Written
import ResourceScript.Format.Yaml.Build
import ResourceScript.Format.Yaml.Cursor
import ResourceScript.Format.Yaml.Graph
import ResourceScript.Format.Yaml.Tag
import ResourceScript.Format.Yaml.Token
import ResourceScript.Format.Yaml.Written
import ResourceScript.Function
import ResourceScript.Host
import ResourceScript.Kind
import ResourceScript.Language.Bloc
import ResourceScript.Language.Call
import ResourceScript.Language.Compiler
import ResourceScript.Language.Lexeme
import ResourceScript.Language.Load
import ResourceScript.Language.Token
import ResourceScript.Library
import ResourceScript.Location
import ResourceScript.Main
import ResourceScript.Media
import ResourceScript.Media.Read
import ResourceScript.Media.Written
import ResourceScript.Member
import ResourceScript.Member.Argument
import ResourceScript.Member.Collection
import ResourceScript.Member.Text
import ResourceScript.Number.Double
import ResourceScript.Number.Numeral
import ResourceScript.Number.Shortest
import ResourceScript.Overload
import ResourceScript.Plain
import ResourceScript.Proofs.Data.Acyclic
import ResourceScript.Proofs.Data.Built
import ResourceScript.Proofs.Data.DateText
import ResourceScript.Proofs.Data.Made
import ResourceScript.Proofs.Data.Mirror
import ResourceScript.Proofs.Data.Printed
import ResourceScript.Proofs.Data.Unrolled
import ResourceScript.Proofs.Files.Entries
import ResourceScript.Proofs.Files.Leaving
import ResourceScript.Proofs.Files.Reading
import ResourceScript.Proofs.Format.Csv
import ResourceScript.Proofs.Format.Form
import ResourceScript.Proofs.Format.FormEntries
import ResourceScript.Proofs.Format.Html.Elements
import ResourceScript.Proofs.Format.Html.Markup
import ResourceScript.Proofs.Format.Html.Nested
import ResourceScript.Proofs.Format.Html.Pieces
import ResourceScript.Proofs.Format.Json
import ResourceScript.Proofs.Format.JsonString
import ResourceScript.Proofs.Format.Properties
import ResourceScript.Proofs.Format.PropertyEscapes
import ResourceScript.Proofs.Format.PropertyFolding
import ResourceScript.Proofs.Format.PropertyLines
import ResourceScript.Proofs.Format.Xml.Fields
import ResourceScript.Proofs.Format.Xml.ReadBack
import ResourceScript.Proofs.Format.Xml.Written
import ResourceScript.Proofs.Isolation.Access
import ResourceScript.Proofs.Isolation.Collection
import ResourceScript.Proofs.Isolation.Follows
import ResourceScript.Proofs.Isolation.Library
import ResourceScript.Proofs.Isolation.Member
import ResourceScript.Proofs.Isolation.Overload
import ResourceScript.Proofs.Isolation.Placement
import ResourceScript.Proofs.Isolation.Reading
import ResourceScript.Proofs.Isolation.Resource
import ResourceScript.Proofs.Isolation.Session
import ResourceScript.Proofs.Isolation.Sight
import ResourceScript.Proofs.Language.BlocEnds
import ResourceScript.Proofs.Language.BlocStacks
import ResourceScript.Proofs.Language.BlockProgram
import ResourceScript.Proofs.Language.CallTree
import ResourceScript.Proofs.Language.CodeLines
import ResourceScript.Proofs.Language.LineFaults
import ResourceScript.Proofs.Language.LineSyntax
import ResourceScript.Proofs.Language.Literal
import ResourceScript.Proofs.Language.PrintedCall
import ResourceScript.Proofs.Language.PrintedScalars
import ResourceScript.Proofs.Language.Program
import ResourceScript.Proofs.Language.SourceText
import ResourceScript.Proofs.Language.SourceValues
import ResourceScript.Proofs.Language.TokenTree
import ResourceScript.Proofs.Lasting.Data
import ResourceScript.Proofs.Lasting.Library
import ResourceScript.Proofs.Lasting.Member
import ResourceScript.Proofs.Lasting.Resource
import ResourceScript.Proofs.Lasting.Task
import ResourceScript.Proofs.Library.Each
import ResourceScript.Proofs.Library.KeyCalls
import ResourceScript.Proofs.Location.FileUri
import ResourceScript.Proofs.Location.VariablePath
import ResourceScript.Proofs.Media.Charset
import ResourceScript.Proofs.Media.Json
import ResourceScript.Proofs.Media.Records
import ResourceScript.Proofs.Media.RoundTrip
import ResourceScript.Proofs.Media.Table
import ResourceScript.Proofs.Media.Values
import ResourceScript.Proofs.Media.Xml
import ResourceScript.Proofs.Number.Numeral
import ResourceScript.Proofs.Number.PlainDecimal
import ResourceScript.Proofs.Number.Rounding
import ResourceScript.Proofs.Overload.Convert
import ResourceScript.Proofs.Overload.MemberCall
import ResourceScript.Proofs.Registry.History
import ResourceScript.Proofs.Resource.DataUri
import ResourceScript.Proofs.Resource.FailedWrites
import ResourceScript.Proofs.Resource.Inline
import ResourceScript.Proofs.Resource.PostedRecord
import ResourceScript.Proofs.Resource.PutAndGet
import ResourceScript.Proofs.Resource.Redirect
import ResourceScript.Proofs.Resource.ScriptSource
import ResourceScript.Proofs.Resource.Steps
import ResourceScript.Proofs.Resource.Variables
import ResourceScript.Proofs.Resource.Ways
import ResourceScript.Proofs.Scope.Changes
import ResourceScript.Proofs.Scope.Grouped
import ResourceScript.Proofs.Scope.KeyTest
import ResourceScript.Proofs.Scope.Nesting
import ResourceScript.Proofs.Scope.OrderedMap
import ResourceScript.Proofs.Scope.Visible
import ResourceScript.Proofs.Session.Append
import ResourceScript.Proofs.Session.CommandLine
import ResourceScript.Proofs.Session.Loading
import ResourceScript.Proofs.Session.Steps
import ResourceScript.Proofs.Session.Transcript
import ResourceScript.Proofs.Store.Access
import ResourceScript.Proofs.Store.Keys
import ResourceScript.Proofs.Store.ListItem
import ResourceScript.Proofs.Store.MapEntry
import ResourceScript.Proofs.Task.Alike
import ResourceScript.Proofs.Task.Depth
import ResourceScript.Proofs.Task.Orders
import ResourceScript.Proofs.Text.Base64
import ResourceScript.Proofs.Text.Case
import ResourceScript.Proofs.Text.Lines
import ResourceScript.Proofs.Text.Percent
import ResourceScript.Proofs.Text.Pieces
import ResourceScript.Proofs.Text.Trim
import ResourceScript.Proofs.Text.Utf8
import ResourceScript.Registry
import ResourceScript.Resource
import ResourceScript.Scope
import ResourceScript.Scope.Current
import ResourceScript.Scope.Entries
import ResourceScript.Script
import ResourceScript.Session
import ResourceScript.Shell
import ResourceScript.Store
import ResourceScript.Store.Equality
import ResourceScript.Store.View
import ResourceScript.Task
import ResourceScript.Text.Base64
import ResourceScript.Text.Case
import ResourceScript.Text.Charset
import ResourceScript.Text.Encoding
import ResourceScript.Text.Ignorable
import ResourceScript.Text.Letter
import ResourceScript.Text.Percent
import ResourceScript.Text.Printable
import ResourceScript.Text.Quoted
import ResourceScript.Text.Ranges
import ResourceScript.Text.Space
import ResourceScript.Text.Utf8
import ResourceScript.Value
import ResourceScript.World
