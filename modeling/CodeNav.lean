import CodeNav.Document.Json
import CodeNav.Document.Size
import CodeNav.Document.Chain
import CodeNav.Document.Search
import CodeNav.Text.Blank
import CodeNav.Gzip.Member
import CodeNav.Target
import CodeNav.ProjectRoot
import CodeNav.Dump.Document
import CodeNav.Dump.Rows
import CodeNav.Dump.Packages
import CodeNav.Encoding.Source
import CodeNav.Store.Loading
import CodeNav.Store.Converter
import CodeNav.PackageIndex
import CodeNav.Cache.Resident
import CodeNav.Service.State
import CodeNav.Query.Answer
import CodeNav.Service.Endpoint
import CodeNav.Settings.Load
import CodeNav.Service.Launch
import CodeNav.Main
import CodeNav.Proofs.Encoding.Served
import CodeNav.Proofs.Service.FailedUploads
import CodeNav.Proofs.Service.LaterQueries
import CodeNav.Proofs.Service.Restarts
import CodeNav.Proofs.Service.SerialOrders
import CodeNav.Proofs.Dump.Answers
import CodeNav.Proofs.Dump.Settling
import CodeNav.Proofs.Dump.Contents
import CodeNav.Proofs.Dump.Rearranged
import CodeNav.Proofs.Dump.Layouts
import CodeNav.Proofs.Document.Search
import CodeNav.Proofs.Document.Chain
import CodeNav.Proofs.Document.Overlapping
import CodeNav.Proofs.Encoding.Addresses
import CodeNav.Proofs.Encoding.Splitting
import CodeNav.Proofs.Service.Transparency
import CodeNav.Proofs.Query.Precedence
import CodeNav.Proofs.Query.Degradation
import CodeNav.Proofs.Service.Interleaving
import CodeNav.Proofs.Service.InUse
import CodeNav.Proofs.Packages.Users
import CodeNav.Proofs.Cache.Recency
import CodeNav.Proofs.Cache.Traffic
import CodeNav.Proofs.Encoding.Locations
import CodeNav.Proofs.Service.Trimming
import CodeNav.Proofs.Service.Names
import CodeNav.Proofs.Service.Presence
import CodeNav.Proofs.Encoding.Traversal
import CodeNav.Proofs.Cache.Saturation
import CodeNav.Proofs.Settings.FlatNumbers
import CodeNav.Proofs.Service.SizeLimit
