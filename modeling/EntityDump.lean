import EntityDump.Main
import EntityDump.Proofs.DetectedJoin
import EntityDump.Proofs.Filter.Comparison
import EntityDump.Proofs.Filter.QuotedLiteral
import EntityDump.Proofs.Followers
import EntityDump.Proofs.Lookup.Dialogue
import EntityDump.Proofs.Query.Paging
import EntityDump.Proofs.Query.SampleItems
import EntityDump.Proofs.Shape.Exactness
import EntityDump.Proofs.Shape.Laws
import EntityDump.Proofs.WholeAnswers
import EntityDump.Proofs.Query.Groups
import EntityDump.Proofs.Query.Numbers
import EntityDump.Proofs.Query.Aggregates
import EntityDump.Proofs.Accumulator
import EntityDump.Proofs.Relationship.Inference
import EntityDump.Proofs.JoinKeys
import EntityDump.Proofs.Path.Language
import EntityDump.Proofs.Reading.Buffer
import EntityDump.Proofs.Filter.Order
import EntityDump.Proofs.Query.Complement
import EntityDump.Proofs.Query.Strictness
import EntityDump.Proofs.JoinExchange
import EntityDump.Proofs.Filter.ByteReading
import EntityDump.Proofs.Filter.Reprinting
import EntityDump.Proofs.Sample.Truncation
import EntityDump.Proofs.Shape.Nodes
